/-
One-line summaries of records: the name, then the fields with their values
between braces. Values that must not be shown are left out or replaced by a
fixed mark, so a summary can be logged.
-/

namespace SmartCard.Summary

/-- Text in double quotes. The texts quoted here hold no quotes of their
own. -/
def quoted (text : String) : String :=
  "\"" ++ text ++ "\""

/-- The mark that stands for a secret. -/
def redacted : String :=
  quoted "<redacted>"

/-- A value that may be absent. -/
def optional (value : Option String) : String :=
  match value with
  | some text => "Some(" ++ text ++ ")"
  | none => "None"

/-- Values in a row, between square brackets. -/
def listing (values : List String) : String :=
  "[" ++ ", ".intercalate values ++ "]"

/-- A record with all its fields. -/
def record (name : String) (fields : List (String × String)) : String :=
  name ++ " \x7b " ++ ", ".intercalate (fields.map fun (field, value) => field ++ ": " ++ value) ++ " \x7d"

/-- A record of which only some fields are shown. -/
def partialRecord (name : String) (fields : List (String × String)) : String :=
  name ++ " \x7b " ++ ", ".intercalate (fields.map fun (field, value) => field ++ ": " ++ value) ++ ", .. \x7d"

end SmartCard.Summary
