import RegisterMachine.Text.Bytes

/-!
# `RegisterMachine.Proofs.Text.Bytes` — characters and their bytes

Every character has at least one byte, and those of ASCII have one.  So a text
has as many bytes as characters exactly if it is ASCII (`byteLength_eq_length_iff`).
-/

namespace RegisterMachine.Text

/-- The bytes of a string are those of its characters -/
theorem byteLength_toList (s : String) : byteLength s.toList = s.utf8ByteSize := by
  rw [← utf8ByteSize_ofList, String.ofList_toList]

/-- All characters are below the code point 128 -/
def Ascii (cs : List Char) : Prop :=
  ∀ c ∈ cs, c.toNat < 128

theorem utf8Size_eq_one {c : Char} : c.utf8Size = 1 ↔ c.toNat < 128 := by
  rw [Char.utf8Size_eq_one_iff, UInt32.le_iff_toNat_le]
  exact Nat.lt_succ_iff.symm

theorem length_le_byteLength (cs : List Char) : cs.length ≤ byteLength cs := by
  induction cs with
  | nil => exact Nat.le_refl 0
  | cons c cs ih =>
    have hc := c.utf8Size_pos
    rw [List.length_cons, byteLength_cons]
    omega

theorem byteLength_eq_length_iff {cs : List Char} : byteLength cs = cs.length ↔ Ascii cs := by
  induction cs with
  | nil => exact ⟨fun _ _ hc => (nomatch hc), fun _ => rfl⟩
  | cons c cs ih =>
    have hc := c.utf8Size_pos
    have hle := length_le_byteLength cs
    rw [byteLength_cons, List.length_cons]
    constructor
    · intro h
      have hone : c.utf8Size = 1 := by omega
      have htail : Ascii cs := ih.1 (by omega)
      intro d hd
      rcases List.mem_cons.1 hd with rfl | hd
      · exact utf8Size_eq_one.1 hone
      · exact htail d hd
    · intro h
      have hone : c.utf8Size = 1 := utf8Size_eq_one.2 (h c List.mem_cons_self)
      have htail := ih.2 fun d hd => h d (List.mem_cons_of_mem c hd)
      omega

/-! ## Dropping bytes -/

/-- What is left of a text without its first bytes; a character that they cut goes with them -/
def dropBytes : Nat → List Char → List Char
  | _, [] => []
  | n, c :: cs => if n = 0 then c :: cs else dropBytes (n - c.utf8Size) cs

theorem dropBytes_zero (cs : List Char) : dropBytes 0 cs = cs := by
  cases cs <;> rfl

/-- The bytes of a piece are dropped with the piece -/
theorem dropBytes_append (cs ds : List Char) : dropBytes (byteLength cs) (cs ++ ds) = ds := by
  induction cs with
  | nil => exact dropBytes_zero ds
  | cons c cs ih =>
    have hc := c.utf8Size_pos
    rw [List.cons_append, byteLength_cons, dropBytes, if_neg (by omega), Nat.add_sub_cancel_left,
      ih]

/-- Where something is left there were more bytes than those that are dropped -/
theorem lt_byteLength_of_dropBytes {n : Nat} {cs : List Char} (h : dropBytes n cs ≠ []) :
    n < byteLength cs := by
  induction cs generalizing n with
  | nil => exact absurd rfl h
  | cons c cs ih =>
    have hc := c.utf8Size_pos
    rw [byteLength_cons]
    rw [dropBytes] at h
    split at h
    · omega
    · have hrest := ih h
      omega

end RegisterMachine.Text
