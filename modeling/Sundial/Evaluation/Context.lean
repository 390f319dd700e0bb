import Sundial.Evaluation.RuntimeFault
import Sundial.Ledger
import Sundial.Sky.Place

/-!
# Evaluation contexts

A context holds the date and place of an evaluation, the sky it asks, and what is known already: the
sky's answers, the times that references resolve to, and the results of function calls by their
canonical text. A new date or place forgets all of it, and every write to the times forgets the call
results, which may have read them. The sky is asked in one way only, by `Context.ask`, which notes
the question in `asked`.
-/

set_option autoImplicit false

namespace Sundial

/-- A question put to the sky. -/
inductive Question where
  | sunTimes (date : Date) (place : Place)
  | crossings (date : Date) (place : Place) (degrees : Float)

namespace Question

def isSunTimes : Question → Bool
  | sunTimes .. => true
  | crossings .. => false

/-- What the sky says to a question. -/
def Answer : Question → Type
  | sunTimes .. => SunTimes
  | crossings .. => Crossings

end Question

/-- The sky's answer to a question. -/
def Sky.answer (sky : Sky) : (q : Question) → q.Answer
  | .sunTimes date place => sky.sunTimes date place
  | .crossings date place degrees => sky.crossings date place degrees

structure Context where
  date : Date
  place : Place
  sky : Sky
  /-- The sun's day, once it was asked for. -/
  sun : Option SunTimes
  /-- Crossings by the bits of their angle. -/
  angles : Ledger UInt64 Crossings
  /-- The times that references resolve to. -/
  times : Ledger String Time
  /-- Results of function calls by their canonical text. -/
  results : Ledger String Time
  /-- The faults of the evaluation in progress; none between evaluations. -/
  faults : List RuntimeError
  /-- The questions put to the sky so far, the latest first. -/
  asked : List Question

namespace Context

/-- A context in which nothing is known yet. -/
def new (date : Date) (place : Place) (sky : Sky) : Context :=
  ⟨date, place, sky, none, .empty, .empty, .empty, [], []⟩

def clearTimes (c : Context) : Context :=
  { c with times := .empty, results := .empty }

/-- Forgets everything that belongs to the date and place. -/
def forget (c : Context) : Context :=
  { c.clearTimes with sun := none, angles := .empty }

def setDate (c : Context) (date : Date) : Context :=
  { c.forget with date := date }

def setPlace (c : Context) (place : Place) : Context :=
  { c.forget with place := place }

/-- Puts a question to the sky and notes it. -/
def ask (c : Context) (q : Question) : q.Answer × Context :=
  (c.sky.answer q, { c with asked := q :: c.asked })

/-- The sun's day, asked for at most once. -/
def sunTimes (c : Context) : SunTimes × Context :=
  match c.sun with
  | some s => (s, c)
  | none =>
    let (s, c) := c.ask (.sunTimes c.date c.place)
    (s, { c with sun := some s })

/-- The crossings of an angle, asked for at most once. -/
def crossings (c : Context) (degrees : Float) : Crossings × Context :=
  match c.angles.get? degrees.toBits with
  | some a => (a, c)
  | none =>
    let (a, c) := c.ask (.crossings c.date c.place degrees)
    (a, { c with angles := c.angles.put degrees.toBits a })

/-- The sun's day is asked for if it is not known. -/
theorem sunTimes_of_none {c : Context} (h : c.sun = none) :
    c.sunTimes = (c.sky.sunTimes c.date c.place,
      { c with
        sun := some (c.sky.sunTimes c.date c.place)
        asked := .sunTimes c.date c.place :: c.asked }) := by
  rw [sunTimes, h]
  rfl

/-- Crossings are asked for if those of the angle are not known. -/
theorem crossings_of_none {c : Context} {degrees : Float}
    (h : c.angles.get? degrees.toBits = none) :
    c.crossings degrees = (c.sky.crossings c.date c.place degrees,
      { c with
        angles := c.angles.put degrees.toBits (c.sky.crossings c.date c.place degrees)
        asked := .crossings c.date c.place degrees :: c.asked }) := by
  rw [crossings, h]
  rfl

/-- The time stored under a key. -/
def time? (c : Context) (key : String) : Option Time := c.times.get? key

/-- Stores a time under a key, in place of an earlier one. -/
def insert (c : Context) (key : String) (t : Time) : Context :=
  { c with times := c.times.put key t, results := .empty }

/-- Stores a time under a key that has none. -/
def remember (c : Context) (key : String) (t : Time) : Context :=
  { c with times := c.times.putNew key t }

def seed (c : Context) (entries : List (String × Time)) : Context :=
  { c with times := c.times.putAll entries, results := .empty }

/-- The result of an earlier call with the same text. -/
def result? (c : Context) (call : String) : Option Time := c.results.get? call

def keepResult (c : Context) (call : String) (t : Time) : Context :=
  { c with results := c.results.put call t }

/-- How often the sky was asked for the sun's day, and for crossings. -/
def askedCounts (c : Context) : Nat × Nat :=
  (c.asked.countP Question.isSunTimes, c.asked.countP fun q => !q.isSunTimes)

end Context

end Sundial
