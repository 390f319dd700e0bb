import Sundial.Calendar.Reader
import Sundial.Command.Completeness
import Sundial.Command.Report
import Sundial.Formula.Checking

/-!
# Sessions

A session holds named formulas and the context they are evaluated in. After every change the whole
set is evaluated again, so that a stored time never belongs to an earlier text, date or place. A
definition is stored before it is evaluated; if the set then fails, what was written is taken back,
and the set is evaluated once more.
-/

set_option autoImplicit false

namespace Sundial

structure Session where
  context : Context
  formulas : FormulaSet

/-- Why a formula is not evaluated or not stored. -/
inductive Rejection where
  | diagnostics (ds : List Diagnostic)
  | set (fault : SetFault)

def Rejection.report : Rejection → String
  | diagnostics ds => Diagnostics.report ds
  | set fault => fault.report

namespace Session

def new (c : Context) : Session := ⟨c, .empty⟩

/-- Evaluates all formulas afresh. -/
def refresh (s : Session) : Except SetFault Unit × Session :=
  let (r, c) := s.formulas.evaluate s.context.clearTimes
  (r.map fun _ => (), { s with context := c })

/-- Evaluates a text that may refer to the stored formulas. -/
def evaluate (s : Session) (text : String) : Except Rejection Time × Session :=
  match Formula.judge ⟨s.formulas.keys, none⟩ text with
  | ⟨some f, []⟩ =>
    let (r, c) := f.evaluate s.context
    (r.mapError fun es =>
      .diagnostics (Diagnostics.withSource text (es.map Located.diagnostic)),
      { s with context := c })
  | v => (.error (.diagnostics v.diagnostics), s)

/-- Stores a text under a key. -/
def store (s : Session) (key text : String) : Session :=
  { s with formulas := s.formulas.put key text }

/-- Takes back what was stored under a key: the former text goes into its place again, and a key
that had none is removed. -/
def takeBack (s : Session) (key : String) (former : Option String) : Session :=
  match former with
  | some text => s.store key text
  | none => { s with formulas := s.formulas.erase key }

/-- What may be referred to by a formula under the key, and by which name it is known itself. -/
def scopeOf (s : Session) (key : String) : Scope :=
  ⟨s.formulas.keys.filter (· ≠ key), some key⟩

/-- Stores a formula under a key and evaluates the set; the key's time. If the set fails, the write
is undone and the set is evaluated as it was. -/
def define (s : Session) (key text : String) : Except Rejection (Option Time) × Session :=
  let verdict := Formula.judge (s.scopeOf key) text
  if !verdict.isValid then (.error (.diagnostics verdict.diagnostics), s)
  else
    let former := s.formulas.get? key
    match (s.store key text).refresh with
    | (.ok (), s') => (.ok (s'.context.time? key), s')
    | (.error e, s') => (.error (.set e), (s'.takeBack key former).refresh.2)

/-- Forgets all formulas and their times. -/
def reset (s : Session) : Session :=
  { s with formulas := .empty, context := s.context.clearTimes }

/-! ## Settings -/

/-- What can be changed about the context. -/
inductive Change where
  | latitude (x : Float)
  | longitude (x : Float)
  | elevation (x : Float)
  | offset (seconds : Int)
  | date (d : Date)

namespace Change

def usage : String := "usage: :set lat|lon|elev|tz|date <value>"

/-- Reads a change from the name of a field and a value. -/
def read (field value : String) : Except String Change :=
  let number : Except String Float := match Number.read? value with
    | some x => .ok x
    | none => .error s!"expected a number, got '{value}'"
  if value = "" then .error usage
  else match field with
    | "lat" | "latitude" => number.map latitude
    | "lon" | "longitude" => number.map longitude
    | "elev" | "elevation" => number.map elevation
    | "tz" | "timezone" => (readOffset value).map offset
    | "date" => (Date.read value).map date
    | other => .error s!"unknown setting '{other}' (expected lat, lon, elev, tz or date)"

def apply (c : Context) : Change → Context
  | latitude x => c.setPlace { c.place with latitude := x }
  | longitude x => c.setPlace { c.place with longitude := x }
  | elevation x => c.setPlace { c.place with elevation := x }
  | offset seconds => c.setPlace { c.place with offset := seconds }
  | date d => c.setDate d

end Change

/-- Changes the context and evaluates all formulas for it. -/
def change (s : Session) (c : Change) : Except SetFault Unit × Session :=
  ({ s with context := c.apply s.context } : Session).refresh

end Session

end Sundial
