/-
This file writes text as the value of an attribute. The delimiting quote and every character
that a reader would change are written as references.
-/

namespace RunSigning.Markup

/-- A character as it is written in a value between the given quotes. -/
def escapeCharacter (quote c : Char) : List Char :=
  if c = '&' then "&amp;".toList
  else if c = '<' then "&lt;".toList
  else if c = '"' ∧ quote = '"' then "&quot;".toList
  else if c = '\'' ∧ quote = '\'' then "&apos;".toList
  else if c = '\t' then "&#x9;".toList
  else if c = '\n' then "&#xA;".toList
  else if c = '\r' then "&#xD;".toList
  else [c]

/-- A text as it is written in a value between the given quotes. -/
def escape (quote : Char) (text : List Char) : List Char :=
  text.flatMap (escapeCharacter quote)

@[simp] theorem escape_nil (quote : Char) : escape quote [] = [] := rfl

@[simp] theorem escape_cons (quote c : Char) (rest : List Char) :
    escape quote (c :: rest) = escapeCharacter quote c ++ escape quote rest := by
  simp [escape]

def escapeString (quote : Char) (text : String) : String :=
  String.ofList (escape quote text.toList)

end RunSigning.Markup
