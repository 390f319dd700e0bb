import Sundial.Calendar.Reader
import Sundial.Evaluation.Context
import Sundial.Json.Writer

/-!
# Values and contexts in other forms

Values as JSON, compact or as part of a document, and the one-line summary of a context.
-/

set_option autoImplicit false

namespace Sundial

namespace Value

/-- The kind of a value in JSON documents. -/
def jsonKind : Value → String
  | time _ => "time"
  | duration _ => "duration"
  | number _ => "number"
  | string _ => "string"
  | boolean _ => "boolean"

/-- The content of a value in JSON documents. -/
def jsonContent : Value → JsonText
  | time t => .string t.text
  | duration minutes => .number minutes
  | number x => .number x
  | string s => .string s
  | boolean b => .boolean b

/-- Kind and content as an object. -/
def json (v : Value) : JsonText :=
  .object [("type", .string v.jsonKind), ("value", v.jsonContent)]

/-- Kind and content as an object on one line, without blanks. -/
def compactJson (v : Value) : String :=
  "\x7b\"type\":" ++ Text.jsonQuoted v.jsonKind ++ ",\"value\":" ++ v.jsonContent 0 ++ "\x7d"

end Value

/-- The numbers of a place, by name. -/
def Place.summary (p : Place) : String :=
  "Location \x7b latitude: " ++ numberText .outline p.latitude ++
    ", longitude: " ++ numberText .outline p.longitude ++
    ", elevation: " ++ numberText .outline p.elevation ++
    ", timezone: " ++ offsetText p.offset ++ " \x7d"

/-- Date, place and the number of stored times. -/
def Context.summary (c : Context) : String :=
  "ExecutionContext \x7b date: " ++ c.date.text ++ ", location: " ++ c.place.summary ++
    ", cached: " ++ toString c.times.size ++ " \x7d"

end Sundial
