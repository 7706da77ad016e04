import Mathlib.Data.List.Infix
import Stencil.Html

/-!
Escaped text holds no markup: its only special character is the ampersand at the
start of an entity, and reading the entities back gives the text.
-/

namespace Stencil.Html

/-- What the special characters become. -/
def entities : List (List Char) :=
  [['&', 'a', 'm', 'p', ';'], ['&', 'l', 't', ';'], ['&', 'g', 't', ';'],
    ['&', 'q', 'u', 'o', 't', ';'], ['&', '#', '3', '9', ';']]

/-- A character that starts or ends a tag or an attribute. -/
def isMarkup (c : Char) : Bool :=
  c == '<' || c == '>' || c == '"' || c == '\''

def unescape : List Char → List Char
  | '&' :: 'a' :: 'm' :: 'p' :: ';' :: rest => '&' :: unescape rest
  | '&' :: 'l' :: 't' :: ';' :: rest => '<' :: unescape rest
  | '&' :: 'g' :: 't' :: ';' :: rest => '>' :: unescape rest
  | '&' :: 'q' :: 'u' :: 'o' :: 't' :: ';' :: rest => '"' :: unescape rest
  | '&' :: '#' :: '3' :: '9' :: ';' :: rest => '\'' :: unescape rest
  | c :: rest => c :: unescape rest
  | [] => []

theorem isSpecial_iff {c : Char} :
    isSpecial c = true ↔ c = '&' ∨ c = '<' ∨ c = '>' ∨ c = '"' ∨ c = '\'' := by
  simp [isSpecial, or_assoc]

theorem escapeChar_plain {c : Char} (h : isSpecial c = false) : escapeChar c = [c] := by
  unfold escapeChar
  split
  case h_6 => rfl
  all_goals cases h

theorem unescape_plain {c : Char} (h : isSpecial c = false) (rest : List Char) :
    unescape (c :: rest) = c :: unescape rest := by
  have hamp : c ≠ '&' := by
    rintro rfl
    cases h
  rw [unescape]
  all_goals
    intro rest' hc
    exact absurd hc hamp

theorem flatMap_escapeChar_plain {s : List Char} (h : ∀ c ∈ s, isSpecial c = false) :
    s.flatMap escapeChar = s := by
  induction s with
  | nil => rfl
  | cons c s ih =>
      have hrest : s.flatMap escapeChar = s := ih fun d hd => h d (List.mem_cons_of_mem _ hd)
      rw [List.flatMap_cons, hrest, escapeChar_plain (h c (List.mem_cons_self ..))]
      rfl

/-- Escaping one character at a time, without looking for the first special one,
comes to the same. -/
theorem toList_escape (text : String) :
    (escape text).toList = text.toList.flatMap escapeChar := by
  unfold escape
  split
  · rename_i hnone
    rw [List.findIdx?_eq_none_iff] at hnone
    rw [flatMap_escapeChar_plain hnone]
  · rename_i first hfirst
    obtain ⟨hlength, -, hbefore⟩ := List.findIdx?_eq_some_iff_getElem.mp hfirst
    have hplain : ∀ c ∈ text.toList.take first, isSpecial c = false := by
      intro c hc
      obtain ⟨i, hi, rfl⟩ := List.mem_take_iff_getElem.mp hc
      simpa using hbefore i (by omega)
    rw [String.toList_ofList]
    conv => rhs; rw [← List.take_append_drop first text.toList, List.flatMap_append]
    rw [flatMap_escapeChar_plain hplain]

theorem unescape_escape (text : String) : unescape (escape text).toList = text.toList := by
  rw [toList_escape]
  induction text.toList with
  | nil => rfl
  | cons c s ih =>
      rw [List.flatMap_cons]
      cases hspecial : isSpecial c with
      | false =>
          rw [escapeChar_plain hspecial, List.singleton_append, unescape_plain hspecial, ih]
      | true =>
          rcases isSpecial_iff.mp hspecial with rfl | rfl | rfl | rfl | rfl <;>
            simp [escapeChar, unescape, ih]

theorem isMarkup_escape {text : String} {c : Char} (hc : c ∈ (escape text).toList) :
    isMarkup c = false := by
  rw [toList_escape, List.mem_flatMap] at hc
  obtain ⟨d, -, hc⟩ := hc
  cases hspecial : isSpecial d with
  | false =>
      rw [escapeChar_plain hspecial, List.mem_singleton] at hc
      subst hc
      unfold isMarkup
      simp only [isSpecial, Bool.or_eq_false_iff] at hspecial
      simp only [hspecial, Bool.or_self]
  | true =>
      rcases isSpecial_iff.mp hspecial with rfl | rfl | rfl | rfl | rfl <;>
        · simp only [escapeChar, List.mem_cons, List.not_mem_nil, or_false] at hc
          rcases hc with rfl | rfl | rfl | rfl | rfl | rfl <;> rfl

/-- A special character becomes an entity, whose only ampersand is its first
character. -/
theorem escapeChar_special {c : Char} (h : isSpecial c = true) :
    ∃ tail, escapeChar c = '&' :: tail ∧ '&' ∉ tail ∧ '&' :: tail ∈ entities := by
  rcases isSpecial_iff.mp h with rfl | rfl | rfl | rfl | rfl <;>
    exact ⟨_, rfl, by decide, by decide⟩

theorem suffix_of_not_mem {c : Char} {s t rest : List Char} (hnone : c ∉ t)
    (h : (c :: rest) <:+ t ++ s) : (c :: rest) <:+ s := by
  induction t with
  | nil => exact h
  | cons d t ih =>
      rw [List.mem_cons, not_or] at hnone
      rw [List.cons_append, List.suffix_cons_iff] at h
      rcases h with h | h
      · obtain ⟨rfl, -⟩ := List.cons.inj h
        exact absurd rfl hnone.1
      · exact ih hnone.2 h

theorem entity_of_ampersand {text : String} {rest : List Char}
    (h : ('&' :: rest) <:+ (escape text).toList) :
    ∃ entity ∈ entities, entity <+: '&' :: rest := by
  rw [toList_escape] at h
  generalize text.toList = s at h
  induction s with
  | nil => simp at h
  | cons c s ih =>
      rw [List.flatMap_cons] at h
      cases hspecial : isSpecial c with
      | false =>
          have hamp : '&' ∉ [c] := by
            rw [List.mem_singleton]
            rintro rfl
            cases hspecial
          rw [escapeChar_plain hspecial] at h
          exact ih (suffix_of_not_mem hamp h)
      | true =>
          obtain ⟨tail, hescape, hnone, hentity⟩ := escapeChar_special hspecial
          rw [hescape, List.cons_append, List.suffix_cons_iff] at h
          rcases h with h | h
          · refine ⟨_, hentity, ?_⟩
            rw [h, ← List.cons_append]
            exact List.prefix_append ..
          · exact ih (suffix_of_not_mem hnone h)

/-- The text is another one escaped: it holds no markup, ampersands only at the
start of entities, and is read back as the other. -/
structure IsEscaped (plain text : String) : Prop where
  eq : text = escape plain
  noMarkup : ∀ c ∈ text.toList, isMarkup c = false
  ampersand {rest : List Char} : ('&' :: rest) <:+ text.toList →
    ∃ entity ∈ entities, entity <+: '&' :: rest
  decodes : unescape text.toList = plain.toList

theorem isEscaped_escape (plain : String) : IsEscaped plain (escape plain) where
  eq := rfl
  noMarkup _ := isMarkup_escape
  ampersand := entity_of_ampersand
  decodes := unescape_escape plain

end Stencil.Html
