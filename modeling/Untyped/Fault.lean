import Untyped.Text.Quoted

/-!
Faults: a stable code, a message, and sometimes a help text.
-/
namespace Untyped

structure Fault where
  code : String
  message : String
  help : Option String := none
deriving DecidableEq

namespace Fault

def json (message : String) : Fault := { code := "E_JSON", message }

/-- A fault of well-formed input that has the wrong shape. -/
def type (message : String) : Fault := { code := "E_TYPE", message }

def withHelp (fault : Fault) (help : String) : Fault := { fault with help := some help }

/-- The report: code and message on one line, the help on a line of its own. -/
def display (fault : Fault) : String :=
  let line := "error[" ++ fault.code ++ "]: " ++ fault.message
  match fault.help with
  | none => line
  | some help => line ++ "\nhelp: " ++ help

/-- The dump: every field by name, texts quoted. -/
def dump (fault : Fault) : String :=
  let quoted (text : String) := String.ofList (Text.quote text.toList)
  let help :=
    match fault.help with
    | none => "None"
    | some help => "Some(" ++ quoted help ++ ")"
  "RuntimeError \x7b code: " ++ quoted fault.code ++ ", message: " ++ quoted fault.message ++
    ", help: " ++ help ++ " \x7d"

end Fault

end Untyped
