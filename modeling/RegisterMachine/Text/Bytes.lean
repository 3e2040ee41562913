/-!
# `RegisterMachine.Text.Bytes` — the length of a text in UTF-8

Positions in a source are counted in bytes of its UTF-8 form, while scanning
goes character by character.  `byteLength` is the bridge between the two: it
is additive (`byteLength_append`), so the position of a piece of text is the
byte length of all that stands before it.
-/

namespace RegisterMachine.Text

/-- The number of bytes of a text in UTF-8 -/
def byteLength : List Char → Nat
  | [] => 0
  | c :: cs => c.utf8Size + byteLength cs

@[simp] theorem byteLength_nil : byteLength [] = 0 := rfl

@[simp] theorem byteLength_cons (c : Char) (cs : List Char) :
    byteLength (c :: cs) = c.utf8Size + byteLength cs := rfl

@[simp] theorem byteLength_append (cs ds : List Char) :
    byteLength (cs ++ ds) = byteLength cs + byteLength ds := by
  induction cs with
  | nil => simp
  | cons c cs ih => simp [ih, Nat.add_assoc]

/-- The length agrees with the string's own -/
theorem utf8ByteSize_ofList (cs : List Char) :
    (String.ofList cs).utf8ByteSize = byteLength cs := by
  induction cs with
  | nil => rfl
  | cons c cs ih => simp [String.ofList_cons, ih]

end RegisterMachine.Text
