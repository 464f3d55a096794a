import Untyped.Text.Quoted
import Untyped.Value.Basic

/-!
The two texts of a value: the one embedded in other text, and the dump, which tells apart values
of different kind or content.
-/
namespace Untyped

/-- Numbers are shown positionally whatever their size, and a tie goes up. -/
def Value.style : NumberStyle := ⟨.up, fun _ => true, false⟩

namespace Reference

def display (r : Reference) : String := "[ref " ++ r.typePath ++ "]"

end Reference

namespace Value

/-- The text that is embedded in other text. -/
def display : Value → String
  | double x => String.ofList (x.write style)
  | single x => String.ofList (x.write style)
  | int n => String.ofList (Json.Number.writeInt n.toInt)
  | text s => s
  | ref r => r.display
  | null => "null"

/-- The dump: the kind of value, and its content in parentheses. -/
def dump : Value → String
  | text s => "Text(" ++ String.ofList (Text.quote s.toList) ++ ")"
  | null => "Null"
  | double x => "Double(" ++ (double x).display ++ ")"
  | single x => "Float(" ++ (single x).display ++ ")"
  | int n => "Int(" ++ (int n).display ++ ")"
  | ref r => "Ref(" ++ r.display ++ ")"

end Value

end Untyped
