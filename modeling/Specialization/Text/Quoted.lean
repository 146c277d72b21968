import Specialization.Text.Printable

/-!
Quoted text: a string between double quotes, with the quote, the backslash and every character
that does not print written as an escape. The apostrophe stands for itself.
-/

namespace Specialization.Text

/-- One character as it is written between quotes. -/
def quotedChar (c : Char) : List Char :=
  match c with
  | '"' => ['\\', '"']
  | '\\' => ['\\', '\\']
  | '\n' => ['\\', 'n']
  | '\r' => ['\\', 'r']
  | '\t' => ['\\', 't']
  | '\x00' => ['\\', '0']
  | c =>
    if isPrintable c then [c]
    else ['\\', 'u', '\x7b'] ++ Nat.toDigits 16 c.toNat ++ ['\x7d']

/-- Whether a character stands for itself between quotes. -/
def isPlain (c : Char) : Bool :=
  quotedChar c == [c]

def quoted (text : String) : String :=
  String.ofList ('"' :: (text.toList.flatMap quotedChar ++ ['"']))

/-- A text that may be absent: `None`, or the quoted text in parentheses after `Some`. -/
def quotedOption : Option String → String
  | none => "None"
  | some text => "Some(" ++ quoted text ++ ")"

theorem flatMap_quotedChar_of_plain (text : List Char) (h : ∀ c ∈ text, isPlain c = true) :
    text.flatMap quotedChar = text := by
  induction text with
  | nil => rfl
  | cons c rest ih =>
    have hc : quotedChar c = [c] := by simpa [isPlain] using h c List.mem_cons_self
    rw [List.flatMap_cons, hc, ih fun d hd => h d (List.mem_cons_of_mem _ hd)]
    rfl

end Specialization.Text
