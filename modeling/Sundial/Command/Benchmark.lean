import Sundial.Command.Setting
import Sundial.Command.Source
import Sundial.Formula.Checking
import Sundial.Text.Lowercase

/-!
# Benchmarks

Times the work on formula sets: lexing, parsing, checking, and evaluating a set for consecutive
days. The sets are the documents of a directory. A summary line is printed for every set, and all
figures are written to a document.
-/

set_option autoImplicit false

namespace Sundial

namespace Benchmark

/-- What is measured. -/
structure Plan where
  /-- Names of the sets; all sets if there are none. -/
  wanted : List String
  iterations : Nat
  /-- Runs in front that are not measured. -/
  warmup : Nat
  days : Nat
  start : Date
  latitude : Float
  longitude : Float
  /-- Hours east of UTC. -/
  offsetHours : Int
  directory : String
  /-- Where the figures go; by the time if none. -/
  output : Option String
  listOnly : Bool

namespace Plan

def options : List OptionName :=
  [.lettered "test" 't', .lettered "iterations" 'n', .lettered "warmup" 'w', .lettered "days" 'd',
    .valued "start", .valued "latitude", .valued "longitude", .valued "utc-offset",
    .valued "sets", .lettered "output" 'o', .switch "list"]

def presetDirectory : String := "benchmark/sets"

def readDate (s : String) : Except String Date :=
  (DateReader.spacedDate s.toList).mapError ReadFault.message

def read (args : List String) : Except UsageFault Plan := do
  let a ← Arguments.read options args
  a.noPlain
  let count (name : String) (preset : Int) : Except UsageFault Nat := do
    return (← readSetting name (readWhole 0 4294967296) preset (a.value? name)).toNat
  let iterations ← count "iterations" 10
  let warmup ← count "warmup" 2
  let days ← count "days" 30
  let start ← readSetting "start" readDate (Date.ofNumbers 2024 1 1) (a.value? "start")
  let latitude ← readSetting "latitude" readNumber 31.7683 (a.value? "latitude")
  let longitude ← readSetting "longitude" readNumber 35.2137 (a.value? "longitude")
  let hours ← readSetting "utc-offset" (readWhole (-2147483648) 2147483648) 2
    (a.value? "utc-offset")
  return ⟨a.values "test", iterations, warmup, days, start, latitude, longitude, hours,
    (a.value? "sets").getD presetDirectory, a.value? "output", a.has "list"⟩

def place (p : Plan) : Place := ⟨p.latitude, p.longitude, 0.0, p.offsetHours * 3600⟩

end Plan

/-! ## Finding the sets -/

structure NamedSet where
  name : String
  path : String
  deriving DecidableEq, Repr

/-- A file name without its last extension, and the extension. A point at the very beginning starts
none. -/
def splitExtension (file : String) : String × Option String :=
  let behind := file.toList.reverse.takeWhile (· ≠ '.')
  let front := (file.toList.reverse.drop (behind.length + 1)).reverse
  if front.isEmpty then (file, none)
  else (String.ofList front, some (String.ofList behind.reverse))

/-- The path of a name in a directory. -/
def joinPath (directory name : String) : String :=
  if directory = "" || directory.endsWith "/" then directory ++ name else directory ++ "/" ++ name

/-- The sets among the files of a directory, by name. -/
def setsAmong (directory : String) (files : List String) : List NamedSet :=
  (files.filterMap fun file =>
    match splitExtension file with
    | (name, some "json") => some ⟨name, joinPath directory file⟩
    | _ => none).mergeSort fun a b => decide (a.name ≤ b.name)

def findSets (directory : String) : Script (List NamedSet) := do
  let files : Except FileFault (List String) ← Script.request (.listDirectory directory)
  return setsAmong directory (files.toOption.getD [])

/-- The sets with one of the wanted names, in letters of any case. -/
def wantedSets (wanted : List String) (sets : List NamedSet) : List NamedSet :=
  sets.filter fun s => (wanted.map Text.lowercase).contains (Text.lowercase s.name)

/-! ## Measuring -/

/-- Work that may fail with a message. -/
abbrev Attempt := ExceptT String Script

namespace Attempt

def of {α : Type} (r : Except String α) : Attempt α := ExceptT.mk (.done r)

def stopwatch : Attempt Nat := ExceptT.mk do
  let n : Nat ← Script.request .stopwatch
  return .ok n

/-- The same work `n` times. -/
def times {α : Type} : Nat → Attempt α → Attempt (List α)
  | 0, _ => pure []
  | n + 1, work => do
    let a ← work
    return a :: (← times n work)

end Attempt

/-- Nanoseconds of one run, in all and by stages. -/
structure Sample where
  total : Nat
  lexing : Nat
  parsing : Nat
  checking : Nat
  evaluating : Nat

def lexAll (set : FormulaSet) : Except String Unit :=
  set.entries.forM fun e =>
    match tokenize e.2 with
    | .ok _ => .ok ()
    | .error f => .error s!"{e.1}: {f.diagnostic.text}"

def parseAll (set : FormulaSet) : Except String (List (String × Formula)) :=
  set.entries.mapM fun e =>
    match Formula.parse e.2 with
    | .ok f => .ok (e.1, f)
    | .error ds => .error s!"{e.1}: {Diagnostics.text ds}"

def checkAll (keys : List String) (formulas : List (String × Formula)) : Except String Unit :=
  formulas.forM fun e =>
    match e.2.check ⟨keys, none⟩ with
    | [] => .ok ()
    | faults => .error s!"{e.1}: {Diagnostics.text (faults.map Located.diagnostic)}"

/-- Evaluates a set for the days from number `day` on, `count` of them. -/
def evaluateDays (set : FormulaSet) (start : Date) : Nat → Nat → Context → Except String Unit
  | _, 0, _ => .ok ()
  | day, count + 1, c =>
    match start.addDays? day with
    | none => .error s!"date out of range: {start.text} + {day} days"
    | some date =>
      match set.evaluate (c.setDate date) with
      | (.ok _, c) => evaluateDays set start (day + 1) count c
      | (.error e, _) => .error s!"{date.text}: {e.message}"

/-- One run through all stages. -/
def run (p : Plan) (set : FormulaSet) : Attempt Sample := do
  let begun ← Attempt.stopwatch
  Attempt.of (lexAll set)
  let lexed ← Attempt.stopwatch
  let formulas ← Attempt.of (parseAll set)
  let parsed ← Attempt.stopwatch
  Attempt.of (checkAll set.keys formulas)
  let checked ← Attempt.stopwatch
  Attempt.of (evaluateDays set p.start 0 p.days (.new p.start p.place .computed))
  let ended ← Attempt.stopwatch
  return ⟨ended - begun, lexed - begun, parsed - lexed, checked - parsed, ended - checked⟩

/-- The samples of a set and the number of its formulas. -/
def measure (p : Plan) (s : NamedSet) : Attempt (Nat × List Sample) := do
  let content : Except FileFault String ← ExceptT.lift (Script.request (.readFile s.path))
  let document ← Attempt.of (content.mapError fun e => s!"Failed to read {s.path}: {e.message}")
  let set ← Attempt.of (Script.readSet s.path document)
  let _ ← Attempt.times p.warmup (run p set)
  return (set.size, ← Attempt.times p.iterations (run p set))

/-! ## Figures -/

def milliseconds (nanos : Nat) : Float := Float.ofNat nanos / 1000000000.0 * 1000.0

/-- The mean; zero if there is nothing to take the mean of. -/
def mean (xs : List Float) : Float :=
  if xs.isEmpty then 0.0 else xs.foldl (· + ·) 0.0 / Float.ofNat xs.length

def least (xs : List Float) : Float := xs.foldl (fun a b => if b < a then b else a) (1.0 / 0.0)
def greatest (xs : List Float) : Float := xs.foldl (fun a b => if a < b then b else a) (-1.0 / 0.0)

/-- The figures of one set. -/
structure Figures where
  name : String
  formulas : Nat
  totals : List Float
  lexing : Float
  parsing : Float
  checking : Float
  evaluating : Float
  /-- Microseconds of evaluation per formula and day. -/
  perFormulaDay : Float

def figures (p : Plan) (name : String) (formulas : Nat) (samples : List Sample) : Figures :=
  let average (stage : Sample → Nat) := mean (samples.map fun s => milliseconds (stage s))
  let evaluating := average Sample.evaluating
  let evaluations := Float.ofNat formulas * Float.ofNat (max p.days 1)
  ⟨name, formulas, samples.map fun s => milliseconds s.total, average Sample.lexing,
    average Sample.parsing, average Sample.checking, evaluating,
    evaluating * 1000.0 / evaluations⟩

/-- The summary line of a set. -/
def Figures.line (f : Figures) : String :=
  let ms (label : String) (x : Float) := s!"{label}={fixedText 3 x}ms"
  Text.padLeft 12 f.name ++ ": total " ++ ms "avg" (mean f.totals) ++ " " ++
    ms "min" (least f.totals) ++ " " ++ ms "max" (greatest f.totals) ++ " | " ++
    ms "lex" f.lexing ++ " " ++ ms "parse" f.parsing ++ " " ++ ms "validate" f.checking ++ " " ++
    ms "exec" f.evaluating ++ " | " ++ fixedText 2 f.perFormulaDay ++ "us/formula/day"

def Figures.json (p : Plan) (f : Figures) : JsonText :=
  .object [("name", .string f.name), ("formulas", .whole f.formulas), ("days", .whole p.days),
    ("iterations", .whole p.iterations), ("avg_total_ms", .number (mean f.totals)),
    ("min_total_ms", .number (least f.totals)), ("max_total_ms", .number (greatest f.totals)),
    ("avg_lex_ms", .number f.lexing), ("avg_parse_ms", .number f.parsing),
    ("avg_validate_ms", .number f.checking), ("avg_exec_ms", .number f.evaluating),
    ("us_per_formula_day", .number f.perFormulaDay)]

def version : String := "0.1.0"

/-- All figures with the time they were taken at. -/
def document (p : Plan) (now : Time) (results : List Figures) : String :=
  let stamp := now.clock.1.text ++ "T" ++ now.clockText ++ "Z"
  (JsonText.object [("timestamp", .string stamp), ("zman_version", .string version),
    ("benchmarks", .array (results.map (Figures.json p)))]).document

/-! ## The command -/

/-- Names without those at the end that lead nowhere. -/
def dropIdle (names : List String) : List String :=
  (names.reverse.dropWhile fun name => name = "" || name = ".").reverse

/-- The directory that a path lies in, as the path writes it; none for the root. A point counts as a
name only in front. -/
def parent? (path : String) : Option String :=
  match path.splitOn "/" with
  | [] => none
  | first :: rest =>
    let names := dropIdle rest
    let leading := dropIdle names.dropLast
    if names.isEmpty then (if first = "" then none else some "")
    else if first = "" ∧ leading.isEmpty then some "/"
    else some ("/".intercalate (first :: leading))

/-- The path of the figures if none is given. -/
def presetOutput (now : Time) : String :=
  let clock := String.ofList (now.clockText.toList.map fun c => if c = ':' then '-' else c)
  "benchmark/results/" ++ now.clock.1.text ++ "_" ++ clock ++ "Z.json"

/-- Creates the directory of a path and writes the text there. -/
def save (path text : String) : Attempt Unit := do
  if let some directory := parent? path then
    let made : Except FileFault Unit ← ExceptT.lift (Script.request (.makeDirectories directory))
    Attempt.of (made.mapError fun e => s!"Failed to create {directory}: {e.message}")
  let written : Except FileFault Unit ← ExceptT.lift (Script.request (.writeFile path text))
  Attempt.of (written.mapError fun e => s!"Failed to write {path}: {e.message}")

/-- Measures sets one after another and prints their summary lines. -/
def measureAll (p : Plan) : List NamedSet → Script (List Figures)
  | [] => .done []
  | s :: rest => do
    let measured ← (measure p s).run
    let (formulas, samples) ← Script.orFail 1 (fun e => s!"{s.name}: {e}\n") measured
    let f := figures p s.name formulas samples
    .printLine f.line
    return f :: (← measureAll p rest)

/-- The sets that a plan asks for, or the end of the script. -/
def chosenSets (p : Plan) (sets : List NamedSet) : Script (List NamedSet) :=
  if !p.wanted.isEmpty then
    match wantedSets p.wanted sets with
    | [] => .failWith 2 "No matching sets. Use --list to see available.\n"
    | chosen => .done chosen
  else if sets.isEmpty then
    .failWith 2 s!"No formula sets (*.json) found in {p.directory}.\n"
  else .done sets

def listSets (sets : List NamedSet) : Script Unit :=
  .printLine ("\n".intercalate
    ("Discovered sets:" :: sets.map fun s => s!"- {s.name} ({s.path})"))

def script (p : Plan) : Script Unit := do
  let sets ← findSets p.directory
  if p.listOnly then listSets sets
  else
    let sets ← chosenSets p sets
    if !offsetInRange (p.offsetHours * 3600) then
      .failWith 2 s!"UTC offset out of range: {p.offsetHours}\n"
    let results ← measureAll p sets
    let now : Time ← Script.request .now
    let path := p.output.getD (presetOutput now)
    let saved ← (save path (document p now results)).run
    Script.orFail 1 (fun e => e ++ "\n") saved
    .printLine s!"\nSaved results to {path}"

end Benchmark

end Sundial
