/-!
# Stretches of input

Readers work on lists of characters and hand back what they did not use. Byte offsets are
recovered from the characters that were used: a stretch of input is as long as the UTF-8
encoding of its characters.
-/

namespace TagTemplate

/-- The number of bytes the characters take in UTF-8. -/
def byteLength : List Char → Nat
  | [] => 0
  | c :: cs => c.utf8Size + byteLength cs

/-- Lengths add up. -/
theorem byteLength_append (a b : List Char) :
    byteLength (a ++ b) = byteLength a + byteLength b := by
  induction a with
  | nil => simp [byteLength]
  | cons c cs ih => simp [byteLength, ih, Nat.add_assoc]

/-- Every character takes a byte at least. -/
theorem length_le_byteLength (cs : List Char) : cs.length ≤ byteLength cs := by
  induction cs with
  | nil => simp [byteLength]
  | cons c cs ih =>
    have hc := c.utf8Size_pos
    simp only [byteLength, List.length_cons]
    omega

/-- The length of characters is that of the text they make up. -/
theorem utf8ByteSize_ofList (cs : List Char) :
    (String.ofList cs).utf8ByteSize = byteLength cs := by
  induction cs with
  | nil => rfl
  | cons c cs ih =>
    rw [← List.singleton_append, String.ofList_append, String.utf8ByteSize_append, ih]
    simp [byteLength]

/-- The length of a text is that of its characters. -/
theorem byteLength_toList (s : String) : byteLength s.toList = s.utf8ByteSize := by
  rw [← utf8ByteSize_ofList, String.ofList_toList]

/-- A stretch of input that has been read as text: the characters it stands for, the
characters it was written with, and the input behind it. -/
structure Scanned where
  /-- What the stretch means. -/
  value : List Char
  /-- What was written. -/
  chars : List Char
  /-- What follows. -/
  rest : List Char
deriving DecidableEq

/-- Puts one more meant character, written as `chars`, in front of a stretch. -/
def Scanned.extend (chars : List Char) (c : Char) (s : Scanned) : Scanned :=
  { s with value := c :: s.value, chars := chars ++ s.chars }

end TagTemplate
