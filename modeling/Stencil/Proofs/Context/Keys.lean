import Stencil.Proofs.Context.Resolution
import Stencil.Proofs.Path.Extension
import Stencil.Proofs.Number.Decimal

/-!
Which entry of a map a key finds. A part of a path that is a run of digits is read as a
position, and a map takes a position as a key in its decimal form. So a key finds the entry
of its canonical key, in which a run of digits has no leading zeros; keys with leading
zeros find the entry of another key, and all others their own.
-/

namespace Stencil

open Numeral

/-- A run of digits that starts with a zero and goes on. -/
def HasLeadingZero (key : String) : Prop :=
  key.toList.all Char.isDigit = true ∧ ∃ c s, key.toList = '0' :: c :: s

/-- The key whose entry is found for a key: a run of digits loses its leading zeros. -/
def canonicalKey (key : String) : String :=
  if key.toList.all Char.isDigit then
    match key.toList.dropWhile (· == '0') with
    | [] => "0"
    | digits => String.ofList digits
  else key

/-- A text that is one part of a path and no loop variable. -/
structure IsKey (key : String) : Prop where
  part : Path.IsPartText key.toList
  notCurrent : key ≠ "this"
  notLoopVariable : isLoopVariable key = false

variable {key : String}

theorem canonicalKey_of_not_digits (h : ¬key.toList.all Char.isDigit) : canonicalKey key = key :=
  if_neg h

/-- The canonical key of a run of digits is the decimal form of its number. -/
theorem canonicalKey_of_digits (h : key.toList.all Char.isDigit) :
    canonicalKey key = toString (ofDigits key.toList) := by
  rw [canonicalKey, if_pos h, ← ofDigits_dropWhile]
  cases hdrop : key.toList.dropWhile (· == '0') with
  | nil => rfl
  | cons c digits =>
      have hzero : c ≠ '0' := by
        have hhead := List.head?_dropWhile_not (· == '0') key.toList
        rw [hdrop] at hhead
        simpa using hhead
      have hdigits : ∀ d ∈ c :: digits, d.isDigit = true := by
        intro d hd
        rw [← hdrop] at hd
        exact List.all_eq_true.mp h d ((List.dropWhile_sublist _).subset hd)
      apply String.toList_injective
      rw [String.toList_ofList, Nat.toString_eq_repr, Nat.toList_repr,
        toDigits_ofDigits hdigits hzero]

/-- A key with a leading zero is longer than its canonical key. -/
theorem canonicalKey_ne (h : HasLeadingZero key) : canonicalKey key ≠ key := by
  obtain ⟨hdigits, c, s, hkey⟩ := h
  intro heq
  have hshort : ((c :: s).dropWhile (· == '0')).length ≤ s.length + 1 :=
    (List.dropWhile_sublist _).length_le
  have hchars := congrArg String.toList heq
  rw [canonicalKey, if_pos hdigits, hkey, List.dropWhile_cons,
    if_pos (beq_self_eq_true _)] at hchars
  have hlength := congrArg List.length hchars
  cases hdrop : (c :: s).dropWhile (· == '0') with
  | nil =>
      rw [hdrop] at hlength
      cases hlength
  | cons d digits =>
      rw [hdrop] at hlength hshort
      simp only [String.toList_ofList, List.length_cons] at hlength hshort
      omega

theorem canonicalKey_eq_self (nonempty : key.toList ≠ []) (h : ¬HasLeadingZero key) :
    canonicalKey key = key := by
  by_cases hdigits : key.toList.all Char.isDigit
  · obtain ⟨c, s, hkey⟩ := List.exists_cons_of_ne_nil nonempty
    apply String.toList_injective
    rw [canonicalKey, if_pos hdigits, hkey, List.dropWhile_cons]
    by_cases hzero : c = '0'
    · subst hzero
      cases s with
      | nil => rfl
      | cons d s => exact absurd ⟨hdigits, d, s, hkey⟩ h
    · rw [if_neg (by simpa using hzero)]
      exact String.toList_ofList
  · exact canonicalKey_of_not_digits hdigits

namespace Context

variable {path : Path} {part : Segment}

/-- A part finds the entry of its canonical key in a map. -/
theorem step?_of_read {text : String} (h : Segment.read text key.toList = .ok part)
    (entries : List (String × Value)) (fromResolver : Bool) :
    (Found.mk (.map entries) fromResolver).step? none part =
      (entries.lookup (canonicalKey key)).map (⟨·, false⟩) := by
  obtain ⟨-, ⟨hdigits, -, rfl⟩ | ⟨hdigits, -, rfl⟩⟩ := Segment.read_eq_ok_iff.mp h
  · rw [canonicalKey_of_digits hdigits]
    rfl
  · rw [canonicalKey_of_not_digits hdigits, String.ofList_toList]
    rfl

theorem isLoopVariable_of_read {text : String} (h : Segment.read text key.toList = .ok part)
    (hkey : isLoopVariable key = false) : part.isLoopVariable = false := by
  obtain ⟨-, ⟨-, -, rfl⟩ | ⟨-, -, rfl⟩⟩ := Segment.read_eq_ok_iff.mp h
  · rfl
  · rw [String.ofList_toList]
    exact hkey

/-- A key is read as one part. -/
theorem parse_key (hkey : IsKey key) (h : Path.parse key = .ok path) :
    ∃ part, Segment.read key key.toList = .ok part ∧ path.segments = [part] := by
  obtain ⟨rfl | hthis, -⟩ | ⟨-, -, parts, hparts, hsegments⟩ := Path.parse_cases h
  · exact absurd (List.mem_cons_self ..) hkey.part.not_mem
  · exact absurd hthis hkey.notCurrent
  · rw [Path.anchor_of_part hkey.part] at hparts hsegments
    obtain ⟨part, hread, rfl⟩ := Path.areRead_part hkey.part hparts
    exact ⟨part, hread, hsegments⟩

theorem follow?_concat (resolver : Option Resolver) (found : Found) (parts : List Segment)
    (part : Segment) : found.follow? resolver (parts ++ [part]) =
      (found.follow? resolver parts).bind (·.step? resolver part) := by
  rw [Found.follow?, List.foldlM_append, Found.follow?]
  congr 1
  funext found
  rw [List.foldlM_cons]
  exact bind_pure _

/-- One more part is followed from what the others find. -/
theorem findIn?_concat {anchored : Bool} {parts : List Segment}
    (hstart : parts = [] → anchored = true) (hpart : part.isLoopVariable = false)
    (resolver : Option Resolver) (scopes : List Scope) :
    findIn? resolver anchored (parts ++ [part]) scopes =
      (findIn? resolver anchored parts scopes).bind (·.step? resolver part) := by
  cases scopes with
  | nil => rfl
  | cons start outer =>
      cases parts with
      | nil =>
          rw [List.nil_append, findIn?, findIn?, first?_of_not_loopVariable hpart,
            if_pos (hstart rfl), stepIn?]
          cases start.value with
          | none => rfl
          | some value => exact Option.bind_fun_some _
      | cons first rest =>
          rw [List.cons_append, findIn?, findIn?, Option.bind_assoc]
          congr 1
          funext found
          exact follow?_concat resolver found rest part

/-- What a path with one more part finds is what the part finds in what the path finds. -/
theorem find?_extended {path extended : Path} {text : String} (hkey : IsKey key)
    (hself : text ≠ "this") (hpath : Path.parse text = .ok path)
    (hextended : Path.parse (text ++ "." ++ key) = .ok extended) :
    ∃ part, Segment.read key key.toList = .ok part ∧
      ∀ (ctx : Context) (resolver : Option Resolver), ctx.find? resolver extended =
        (ctx.find? resolver path).bind (·.step? resolver part) := by
  obtain ⟨parts, part, hparts, hread, hsegments, hmore⟩ :=
    Path.parse_extended hkey.part hself hpath hextended
  refine ⟨part, hread, fun ctx resolver => ?_⟩
  obtain ⟨anchor, hsteps, -⟩ := Anchor.opens_anchor text.toList
  rw [hsteps] at hsegments hmore
  have hall : ∀ segment ∈ parts ++ [part], segment.IsPart :=
    List.forall_mem_append.mpr ⟨hparts.isPart,
      List.forall_mem_singleton.mpr (Segment.isPart_of_read hread)⟩
  have nonempty := (Path.IsRead.wellFormed ⟨text, hpath⟩).nonempty
  have hmoreNonempty := (Path.IsRead.wellFormed ⟨_, hextended⟩).nonempty
  have hstart : parts = [] → anchor.moves = true := by
    rintro rfl
    cases anchor with
    | here => exact absurd hsegments nonempty
    | enclosing levels => rfl
    | root => rfl
  rw [find?_eq hsegments hparts.isPart nonempty, find?_eq hmore hall hmoreNonempty]
  exact findIn?_concat hstart (isLoopVariable_of_read hread hkey.notLoopVariable) resolver _

/-- A key with a map as the only scope. -/
theorem find?_key (hkey : IsKey key) (hread : Path.parse key = .ok path) {scope : Scope}
    {entries : List (String × Value)} (hvalue : scope.value = some (.map entries)) :
    (Context.mk scope []).find? none path =
      (entries.lookup (canonicalKey key)).map (⟨·, false⟩) := by
  obtain ⟨part, hpart, hsegments⟩ := parse_key hkey hread
  have hparts : ∀ segment ∈ [part], segment.IsPart :=
    List.forall_mem_singleton.mpr (Segment.isPart_of_read hpart)
  have nonempty := (Path.IsRead.wellFormed ⟨key, hread⟩).nonempty
  have hsteps : path.segments = Anchor.here.steps ++ [part] := hsegments
  have hloop := isLoopVariable_of_read hpart hkey.notLoopVariable
  rw [find?_eq hsteps hparts nonempty, scopesFrom, findIn?_scopes,
    first?_of_not_loopVariable hloop, Anchor.moves, if_neg Bool.false_ne_true, scopes,
    List.findSome?_singleton, stepIn?, hvalue]
  exact (Option.bind_fun_some _).trans (step?_of_read hpart entries false)

/-- With no resolver, a key finds the entry of its canonical key in a map that is the only
scope or that another path finds. That is its own entry, or nothing if there is none, for
all keys but those with leading zeros. -/
theorem key_finds_canonical_entry (hkey : IsKey key) (hread : Path.parse key = .ok path) :
    (∀ (scope : Scope) (entries : List (String × Value)), scope.value = some (.map entries) →
      (Context.mk scope []).find? none path =
        (entries.lookup (canonicalKey key)).map (⟨·, false⟩)) ∧
    (∀ (text : String) (outer extended : Path), text ≠ "this" → Path.parse text = .ok outer →
      Path.parse (text ++ "." ++ key) = .ok extended →
      ∀ (ctx : Context) (entries : List (String × Value)) (fromResolver : Bool),
        ctx.find? none outer = some ⟨.map entries, fromResolver⟩ →
          ctx.find? none extended = (entries.lookup (canonicalKey key)).map (⟨·, false⟩)) ∧
    ((∀ entries : List (String × Value), (Context.root (.map entries)).find? none path =
        (entries.lookup key).map (⟨·, false⟩)) ↔ ¬HasLeadingZero key) := by
  have halone (scope : Scope) (entries : List (String × Value))
      (hvalue : scope.value = some (.map entries)) := find?_key hkey hread hvalue
  refine ⟨halone, ?_, ?_, ?_⟩
  · intro text outer extended hself houter hextended ctx entries fromResolver hfound
    obtain ⟨part, hpart, hfind⟩ := find?_extended hkey hself houter hextended
    rw [hfind, hfound, Option.bind_some, step?_of_read hpart]
  · intro hown hzero
    have hentry := hown [(key, .null)]
    rw [Context.root, halone _ _ rfl, List.lookup_cons_self, List.lookup_cons,
      beq_false_of_ne (canonicalKey_ne hzero)] at hentry
    cases hentry
  · intro hzero entries
    rw [Context.root, halone _ _ rfl, canonicalKey_eq_self hkey.part.nonempty hzero]

theorem name_finds_own_entry : IsKey "id" ∧ Path.parse "id" = .ok ⟨[.name "id"], "id"⟩ ∧
    (Context.root (.map [("id", .bool true)])).find? none ⟨[.name "id"], "id"⟩ =
      some ⟨.bool true, false⟩ := by
  have hchars : "id".toList.all isNameChar = true := by decide +kernel
  have hkey : IsKey "id" := ⟨⟨by decide, List.all_eq_true.mp hchars⟩, by decide, by decide⟩
  have hread : Path.parse "id" = .ok ⟨[.name "id"], "id"⟩ := by decide +kernel
  have hfind := (key_finds_canonical_entry hkey hread).1
    (.ofValue "" (.map [("id", .bool true)])) [("id", .bool true)] rfl
  rw [canonicalKey_of_not_digits (by decide)] at hfind
  exact ⟨hkey, hread, hfind⟩

/-- Digits after a zero: the entry that is found is another one than that of the key. -/
theorem padded_digits_find_other_entry :
    IsKey "01" ∧ Path.parse "01" = .ok ⟨[.index 1], "01"⟩ ∧
      [("01", Value.bool true), ("1", .bool false)].lookup "01" = some (.bool true) ∧
      (Context.root (.map [("01", .bool true), ("1", .bool false)])).find? none
        ⟨[.index 1], "01"⟩ = some ⟨.bool false, false⟩ := by
  have hchars : "01".toList.all isNameChar = true := by decide +kernel
  have hread : Path.parse "01" = .ok ⟨[.index 1], "01"⟩ := by decide +kernel
  exact ⟨⟨⟨by decide, List.all_eq_true.mp hchars⟩, by decide, by decide⟩, hread, rfl, rfl⟩

end Context

end Stencil
