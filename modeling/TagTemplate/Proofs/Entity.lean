import TagTemplate.Text.Entity
import Mathlib.Data.List.Basic
import Mathlib.Tactic

/-!
# Text in markup read back

The five replacements of `Entity.escape` run over the whole text one after the other, each over what
the others have left. Since the ampersand comes first, all of them together do to every character
what `escapeChar` does (`toList_escape`), and nothing is ever replaced twice. What is known of
escaped text follows character by character: no bracket and no quote is left in it, ampersands are
left only where entities begin (`exists_entity_prefix`), and reading entities from left to right
gives the text back (`decode_escape`).

## Main results

* `toList_escape`: the five replacements are one.
* `notMem_escape`: what has a meaning of its own does not occur in escaped text.
* `exists_entity_prefix`: ampersands begin entities.
* `decode_escape`, `escape_injective`: escaped text stands for one text only.
* `escape_safe`: all of this at once.
-/

namespace TagTemplate.Entity

/-- How a character is written in markup. -/
def escapeChar : Char → List Char
  | '&' => ['&', 'a', 'm', 'p', ';']
  | '<' => ['&', 'l', 't', ';']
  | '>' => ['&', 'g', 't', ';']
  | '"' => ['&', 'q', 'u', 'o', 't', ';']
  | '\'' => ['&', 'a', 'p', 'o', 's', ';']
  | c => [c]

/-- The characters with a meaning of their own. -/
def special : List Char := ['&', '<', '>', '"', '\'']

/-- The other characters are written as they are. -/
theorem escapeChar_of_notMem {c : Char} (h : c ∉ special) : escapeChar c = [c] := by
  simp only [special, List.mem_cons, List.not_mem_nil, or_false, not_or] at h
  rw [escapeChar.eq_def]
  split <;> simp_all

/-- A fact about all characters holds if it holds of the special ones and of the others. -/
theorem special_cases {motive : Char → Prop} (amp : motive '&') (lt : motive '<')
    (gt : motive '>') (quot : motive '"') (apos : motive '\'')
    (plain : ∀ c, c ∉ special → motive c) (c : Char) : motive c := by
  by_cases hc : c ∈ special
  · simp only [special, List.mem_cons, List.not_mem_nil, or_false] at hc
    rcases hc with rfl | rfl | rfl | rfl | rfl
    · exact amp
    · exact lt
    · exact gt
    · exact quot
    · exact apos
  · exact plain c hc

/-- **The five replacements are one**: each character is written on its own. -/
theorem toList_escape (text : String) :
    (escape text).toList = text.toList.flatMap escapeChar := by
  simp only [escape, replacements, List.foldl, replaceChar, String.toList_ofList,
    List.flatMap_assoc]
  congr 1
  funext c
  induction c using special_cases with
  | amp | lt | gt | quot | apos => rfl
  | plain c hc =>
      rw [escapeChar_of_notMem hc]
      simp only [special, List.mem_cons, List.not_mem_nil, or_false, not_or] at hc
      simp only [hc, if_false, List.flatMap_singleton]

/-- Texts in a row are escaped one after the other. -/
theorem escape_append (a b : String) : escape (a ++ b) = escape a ++ escape b := by
  rw [← String.toList_inj]
  simp [toList_escape]

/-- Brackets and quotes do not occur in escaped text. -/
theorem notMem_escape {c : Char} (hc : c ∈ special) (hamp : c ≠ '&') (text : String) :
    c ∉ (escape text).toList := by
  rw [toList_escape, List.mem_flatMap]
  rintro ⟨d, -, hd⟩
  induction d using special_cases with
  | amp | lt | gt | quot | apos =>
      simp only [special, List.mem_cons, List.not_mem_nil, or_false] at hc
      rcases hc with rfl | rfl | rfl | rfl | rfl
      · exact hamp rfl
      all_goals exact absurd hd (by decide)
  | plain d hd' =>
      rw [escapeChar_of_notMem hd', List.mem_singleton] at hd
      exact hd' (hd ▸ hc)

/-- An ampersand in an escaped character begins an entity, and there is nothing in front of it. -/
theorem eq_nil_of_escapeChar_eq_append {c : Char} {before after : List Char}
    (h : escapeChar c = before ++ '&' :: after) :
    before = [] ∧ ∃ entry ∈ replacements, entry.2.toList = escapeChar c := by
  have hhead (cs : List Char) (hcs : '&' ∉ cs) (heq : '&' :: cs = before ++ '&' :: after) :
      before = [] := by
    cases before with
    | nil => rfl
    | cons d before =>
        obtain ⟨-, rfl⟩ := List.cons.inj heq
        exact absurd (List.mem_append_right before List.mem_cons_self) hcs
  induction c using special_cases with
  | amp => exact ⟨hhead _ (by decide) h, ('&', "&amp;"), by decide, rfl⟩
  | lt => exact ⟨hhead _ (by decide) h, ('<', "&lt;"), by decide, rfl⟩
  | gt => exact ⟨hhead _ (by decide) h, ('>', "&gt;"), by decide, rfl⟩
  | quot => exact ⟨hhead _ (by decide) h, ('"', "&quot;"), by decide, rfl⟩
  | apos => exact ⟨hhead _ (by decide) h, ('\'', "&apos;"), by decide, rfl⟩
  | plain c hc =>
      have hmem : '&' ∈ escapeChar c := h ▸ by simp
      rw [escapeChar_of_notMem hc, List.mem_singleton] at hmem
      exact absurd (hmem ▸ by decide) hc

/-- **Every ampersand of escaped text begins an entity.** The induction is on the text: the
ampersand stands in what its first character is written as, or behind it. -/
theorem exists_entity_prefix {text before after : List Char}
    (h : text.flatMap escapeChar = before ++ '&' :: after) :
    ∃ entry ∈ replacements, entry.2.toList <+: '&' :: after := by
  induction text generalizing before with
  | nil => simp at h
  | cons c text ih =>
      rw [List.flatMap_cons, List.append_eq_append_iff] at h
      rcases h with ⟨behind, -, htext⟩ | ⟨left, hchar, hleft⟩
      · exact ih htext
      · cases left with
        | nil =>
            rw [List.nil_append] at hleft
            have htext : text.flatMap escapeChar = [] ++ '&' :: after := hleft.symm
            exact ih htext
        | cons d left =>
            obtain ⟨rfl, hafter⟩ := List.cons.inj hleft
            obtain ⟨rfl, entry, hentry, heq⟩ := eq_nil_of_escapeChar_eq_append hchar
            refine ⟨entry, hentry, ?_⟩
            rw [heq, hchar, hafter]
            exact List.prefix_append _ _

/-- Entities read from left to right. -/
def decode : List Char → List Char
  | [] => []
  | '&' :: 'a' :: 'm' :: 'p' :: ';' :: cs => '&' :: decode cs
  | '&' :: 'l' :: 't' :: ';' :: cs => '<' :: decode cs
  | '&' :: 'g' :: 't' :: ';' :: cs => '>' :: decode cs
  | '&' :: 'q' :: 'u' :: 'o' :: 't' :: ';' :: cs => '"' :: decode cs
  | '&' :: 'a' :: 'p' :: 'o' :: 's' :: ';' :: cs => '\'' :: decode cs
  | c :: cs => c :: decode cs

/-- One escaped character is read back, whatever follows it. -/
theorem decode_escapeChar_append (c : Char) (cs : List Char) :
    decode (escapeChar c ++ cs) = c :: decode cs := by
  induction c using special_cases with
  | amp | lt | gt | quot | apos => rfl
  | plain c hc =>
      have hamp : c ≠ '&' := fun hamp => hc (by simp [special, hamp])
      rw [escapeChar_of_notMem hc, List.singleton_append, decode.eq_def]
      split <;> simp_all

/-- **Escaped text is read back.** -/
theorem decode_escape (text : String) : decode (escape text).toList = text.toList := by
  rw [toList_escape]
  induction text.toList with
  | nil => rfl
  | cons c cs ih => rw [List.flatMap_cons, decode_escapeChar_append, ih]

/-- Different texts are escaped differently. -/
theorem escape_injective : Function.Injective escape := by
  intro a b h
  rw [← String.toList_inj, ← decode_escape a, h, decode_escape]

/-- **A text that is escaped safely**, so that it can be put into markup and taken out again. -/
structure IsSafe (text : String) : Prop where
  /-- The replacements one after the other come to a single pass over the text. -/
  pass : (escape text).toList = text.toList.flatMap escapeChar
  /-- There is no bracket and no quote. -/
  notMem : ∀ c ∈ ['<', '>', '"', '\''], c ∉ (escape text).toList
  /-- Where there is an ampersand there is an entity. -/
  entity : ∀ before after, (escape text).toList = before ++ '&' :: after →
    ∃ entry ∈ replacements, entry.2.toList <+: '&' :: after
  /-- Reading the entities gives back the text. -/
  decode : Entity.decode (escape text).toList = text.toList

/-- **Every text is escaped safely**, and no two texts alike. -/
theorem escape_safe : (∀ text, IsSafe text) ∧ Function.Injective escape := by
  refine ⟨fun text => ⟨toList_escape text, fun c hc => ?_, fun before after h => ?_,
    decode_escape text⟩, escape_injective⟩
  · have hspecial : c ∈ special := List.mem_cons_of_mem _ hc
    have hamp : c ≠ '&' := by
      rintro rfl
      exact absurd hc (by decide)
    exact notMem_escape hspecial hamp text
  · rw [toList_escape] at h
    exact exists_entity_prefix h

/-- A text that has been escaped twice already is escaped once more, and told from the one that has
been escaped once. -/
theorem escape_safe_again :
    escape "&amp;lt;" = "&amp;amp;lt;" ∧ escape "&amp;lt;" ≠ escape "&lt;" ∧
      (∃ entry ∈ replacements, entry.2.toList <+: "&amp;amp;lt;".toList) ∧
      '<' ∉ (escape "&amp;lt;").toList ∧
      decode "&amp;amp;lt;".toList = "&amp;lt;".toList := by
  have hsafe := escape_safe.1 "&amp;lt;"
  have htext : escape "&amp;lt;" = "&amp;amp;lt;" := by decide
  refine ⟨htext, escape_safe.2.ne (by decide), hsafe.entity [] "amp;amp;lt;".toList ?_,
    hsafe.notMem '<' (by decide), ?_⟩
  · rw [htext]
    rfl
  · rw [← htext]
    exact hsafe.decode

end TagTemplate.Entity
