/-!
# Text for a terminal

Text that somebody else chose must not steer the terminal on which a message is shown.
`clean` takes the control sequences out of a text and keeps what would be seen of it.

A sequence begins with an escape character. What follows decides how far it goes: a parameter
sequence goes up to its final letter, a command string up to a bell, the other strings up to a
string terminator, and any other sequence up to its one final character. A device string has a
head like a parameter sequence in front of it, in which a string terminator means nothing. The
cancel and the substitute character break off every sequence, and an escape character begins a
new one. A sequence that has no end takes the rest of the text with it.

Of the control characters outside sequences only those that lay out a text are kept.

## Layout inside a sequence

A layout character inside a sequence that is not a string is kept where it stands, and the
characters right behind it are taken for text. The sequence goes on at the next control
character.

## Main statements

* `shows_of_mem_strip`: what is kept can be seen.
* `strip_of_shows`: a text that can be seen altogether is kept as it is.
-/

namespace TagTemplate.Terminal

/-- Where a place in a text stands with respect to control sequences. -/
inductive Place where
  /-- Outside of them. -/
  | text
  /-- Right behind an escape character. -/
  | escape
  /-- Behind an intermediate character of a short sequence. -/
  | intermediate
  /-- Inside a parameter sequence. -/
  | parameters
  /-- Inside a command string. -/
  | command
  /-- At the beginning of the head of a device string. -/
  | device
  /-- Among the parameters of such a head. -/
  | deviceParameters
  /-- Behind an intermediate character of such a head. -/
  | deviceIntermediate
  /-- Inside another string. -/
  | string
deriving DecidableEq

/-- Whether the number of a character lies between two others. -/
def between (low high : Nat) (c : Char) : Bool := low ≤ c.toNat && c.toNat ≤ high

/-- Whether a character is seen itself. -/
def isGraphic (c : Char) : Bool := 0x20 ≤ c.toNat && c.toNat != 0x7f

/-- The control characters that lay out a text: tab, line feed, form feed and carriage
return. -/
def isLayout (c : Char) : Bool := c == '\t' || c == '\n' || c == '\x0c' || c == '\r'

/-- Whether a character takes more than one byte. -/
def isWide (c : Char) : Bool := 0x80 ≤ c.toNat

/-- Whether a character can be seen at a place. -/
def shows : Place → Char → Bool
  | .text, c => isGraphic c || isLayout c
  | .escape, c | .intermediate, c | .parameters, c => isLayout c
  | .command, _ | .device, _ | .deviceParameters, _ | .deviceIntermediate, _ | .string, _ => false

/-- Whether a character holds the byte that terminates a string. -/
def terminatesString (c : Char) : Bool := (String.utf8EncodeChar c).contains 0x9c

/-- The place behind the character that follows an escape character. -/
def afterEscape (c : Char) : Place :=
  if c == '[' then .parameters
  else if c == ']' then .command
  else if c == 'P' then .device
  else if c == 'X' || c == '^' || c == '_' then .string
  else if between 0x20 0x2f c then .intermediate
  else if between 0x30 0x7e c then .text
  else .escape

/-- The place behind a character of the head of a device string: `onward` behind a parameter,
and `here` still behind a character that means nothing in a head. -/
def inDeviceHead (here onward : Place) (c : Char) : Place :=
  if between 0x20 0x2f c then .deviceIntermediate
  else if between 0x30 0x3f c then onward
  else if between 0x40 0x7e c then .string
  else here

/-- The place behind a character. -/
def Place.next (p : Place) (c : Char) : Place :=
  if c == '\x1b' then .escape
  else if c == '\x18' || c == '\x1a' then .text
  else
    match p with
    | .text => .text
    | .escape => afterEscape c
    | .intermediate => if between 0x30 0x7e c then .text else .intermediate
    | .parameters => if between 0x40 0x7e c then .text else .parameters
    | .command => if c == '\x07' then .text else .command
    | .device => inDeviceHead .device .deviceParameters c
    | .deviceParameters =>
      inDeviceHead .deviceParameters
        (if between 0x3c 0x3f c then .string else .deviceParameters) c
    | .deviceIntermediate => inDeviceHead .deviceIntermediate .string c
    | .string => if terminatesString c then .text else .string

/-- What is kept of a text that begins at a place; `seen` says whether the character in front
was kept, behind which everything is text up to the next control character. -/
def strip (seen : Bool) (p : Place) : List Char → List Char
  | [] => []
  | c :: cs =>
    if shows (if seen then .text else p) c then
      c :: strip true (if isWide c then .text else p) cs
    else strip false (p.next c) cs

/-- A text without control sequences. -/
def clean (text : String) : String := String.ofList (strip true .text text.toList)

/-- What is seen inside a sequence is seen outside of it. -/
theorem shows_text_of_shows {p : Place} {c : Char} (h : shows p c) : shows .text c := by
  cases p <;> simp_all [shows]

/-- What is kept can be seen. -/
theorem shows_of_mem_strip {seen : Bool} {p : Place} {cs : List Char} {c : Char}
    (h : c ∈ strip seen p cs) : shows .text c := by
  induction cs generalizing seen p with
  | nil => simp [strip] at h
  | cons d ds ih =>
    by_cases hd : shows (if seen then .text else p) d
    · rw [strip, if_pos hd] at h
      rcases List.mem_cons.1 h with rfl | h
      · exact shows_text_of_shows hd
      · exact ih h
    · rw [strip, if_neg hd] at h
      exact ih h

/-- A text that can be seen altogether is kept as it is. -/
theorem strip_of_shows {p : Place} {cs : List Char} (h : ∀ c ∈ cs, shows .text c) :
    strip true p cs = cs := by
  induction cs generalizing p with
  | nil => rfl
  | cons d ds ih =>
    have hd : shows .text d := h d (by simp)
    rw [strip, if_pos (by simpa using hd), ih fun c hc => h c (by simp [hc])]

end TagTemplate.Terminal
