import Stencil.Proofs.Expression.Recovery
import Stencil.Proofs.Expression.Steps
import Stencil.Proofs.Span.Position

/-!
Reading a text by offsets. A cursor stands at a byte offset of the text and is moved on by
sizes of characters; what lies behind it is cut from the text anew whenever it is looked at.
Nothing about a walk with such a cursor ensures that it comes to an end or cuts the text
only between characters: it has a result if it does, and if its recursion stays within the
rounds it was given. What a walk reads is stated in terms of the text behind the cursor,
and composed along the walk.
-/

namespace Stencil.Expression

open Text

/-- The offset is that of the end `s` of a text. -/
def IsPlace (source : String) (offset : Nat) (s : List Char) : Prop :=
  ∃ front, source.toList = front ++ s ∧ offset = byteSize front

namespace IsPlace

variable {source : String} {offset later : Nat} {s rest : List Char}

theorem isValid (h : IsPlace source offset s) : (String.Pos.Raw.mk offset).IsValid source := by
  obtain ⟨front, hsource, hoffset⟩ := h
  exact isValid_iff.mpr ⟨front, s, hsource, hoffset⟩

/-- Further on in a text the offset is not smaller. -/
theorem le (h : IsPlace source offset s) (hlater : IsPlace source later rest)
    (hsuffix : rest <:+ s) : offset ≤ later := by
  obtain ⟨front, hsource, rfl⟩ := h
  obtain ⟨front', hsource', rfl⟩ := hlater
  obtain ⟨text, rfl⟩ := hsuffix
  have hsize := congrArg byteSize (hsource.symm.trans hsource')
  simp only [byteSize_append] at hsize
  omega

end IsPlace

/-- Where reading stands in a text: the offset, the offsets before it, latest first, and the
faults met. -/
structure Cursor where
  offset : Nat
  passed : List Nat
  faults : List Fault

namespace Cursor

def start : Cursor := ⟨0, [], []⟩

/-- The offsets at which reading stood, in this order. -/
def trail (cursor : Cursor) : List Nat :=
  (cursor.offset :: cursor.passed).reverse

/-- The cursor stands in front of `s`, and it was never set back nor into a character. -/
structure At (source : String) (cursor : Cursor) (s : List Char) : Prop where
  place : IsPlace source cursor.offset s
  valid : ∀ offset ∈ cursor.passed, (String.Pos.Raw.mk offset).IsValid source
  ascending : (cursor.offset :: cursor.passed).Pairwise (· ≥ ·)

variable {source : String} {cursor : Cursor} {s : List Char}

theorem start_at (source : String) : start.At source source.toList :=
  ⟨⟨[], rfl, rfl⟩, List.forall_mem_nil _, List.pairwise_singleton _ _⟩

theorem At.ascending_trail (h : cursor.At source s) : cursor.trail.Pairwise (· ≤ ·) :=
  List.pairwise_reverse.mpr h.ascending

theorem At.valid_trail (h : cursor.At source s) :
    ∀ offset ∈ cursor.trail, (String.Pos.Raw.mk offset).IsValid source := by
  intro offset hoffset
  rcases List.mem_cons.mp (List.mem_reverse.mp hoffset) with rfl | hpassed
  · exact h.place.isValid
  · exact h.valid offset hpassed

end Cursor

/-- Reading with a cursor. There is no result if the text is cut inside a character or past
its end, nor if a recursion goes deeper than the rounds that it was given. -/
abbrev Walk (α : Type) := StateT Cursor Option α

namespace Walk

/-- From wherever the cursor stands in front of `s`, the walk comes to an end with this value
and these faults in front of this rest. -/
def Reads {α : Type} (source : String) (s : List Char) (walk : Walk α)
    (outcome : α × List Fault × List Char) : Prop :=
  ∀ cursor : Cursor, cursor.At source s → ∃ last : Cursor,
    walk.run cursor = some (outcome.1, last) ∧ last.At source outcome.2.2 ∧
      last.faults = cursor.faults ++ outcome.2.1

/-- From wherever the cursor stands in the text, the walk comes to an end, there or further
on, and its recursion goes no deeper than linearly in the length of what is in front. -/
def Ends {α : Type} (source : String) (walk : Nat → Walk α) : Prop :=
  ∀ (cursor : Cursor) s rounds, cursor.At source s → 4 * s.length + 5 ≤ rounds →
    ∃ (value : α) (last : Cursor) (rest : List Char),
      (walk rounds).run cursor = some (value, last) ∧ last.At source rest ∧
        cursor.offset ≤ last.offset

section Rules

variable {α β : Type} {source : String} {s t rest : List Char} {faults more : List Fault}
  {walk : Walk α} {next : α → Walk β} {a : α} {b : β}

theorem Reads.result (a : α) : Reads source s (return a) (a, [], s) := by
  intro cursor hcursor
  exact ⟨cursor, rfl, hcursor, (List.append_nil _).symm⟩

theorem Reads.bind (h : Reads source s walk (a, faults, t))
    (hnext : Reads source t (next a) (b, more, rest)) :
    Reads source s (walk >>= next) (b, faults ++ more, rest) := by
  intro cursor hcursor
  obtain ⟨middle, hwalk, hmiddle, hfaults⟩ := h cursor hcursor
  obtain ⟨last, hrest, hlast, hmore⟩ := hnext middle hmiddle
  refine ⟨last, ?_, hlast, ?_⟩
  · rw [StateT.run_bind, hwalk]
    exact hrest
  · rw [hmore, hfaults, List.append_assoc]

/-- A walk without faults in front of another one. -/
theorem Reads.step {outcome : β × List Fault × List Char} (h : Reads source s walk (a, [], t))
    (hnext : Reads source t (next a) outcome) : Reads source s (walk >>= next) outcome :=
  Reads.bind h hnext

/-- A walk without faults behind another one. -/
theorem Reads.close (h : Reads source s walk (a, faults, t))
    (hnext : Reads source t (next a) (b, [], rest)) :
    Reads source s (walk >>= next) (b, faults, rest) := by
  have hbind := Reads.bind h hnext
  rwa [List.append_nil] at hbind

theorem Reads.map (f : α → β) (h : Reads source s walk (a, faults, t)) :
    Reads source s (do return f (← walk)) (f a, faults, t) :=
  Reads.close h (Reads.result (f a))

/-- A walk that reads what a reader does comes to an end. -/
theorem Ends.of_reads {walk : Nat → Walk α} (reading : ∀ s, Reading s α)
    (h : ∀ s rounds, 4 * s.length + 5 ≤ rounds →
      Reads source s (walk rounds) (reading s).outcome) : Ends source walk := by
  intro cursor s rounds hcursor hrounds
  obtain ⟨last, hrun, hlast, -⟩ := h s rounds hrounds cursor hcursor
  exact ⟨_, last, _, hrun, hlast, hcursor.place.le hlast.place (reading s).suffix⟩

end Rules

section Movement

def remaining (source : String) : Walk (List Char) := do
  let cursor ← get
  slice? cursor.offset (byteSize source.toList) source.toList

def moveTo (offset : Nat) : Walk Unit :=
  modify fun cursor => { cursor with offset, passed := cursor.offset :: cursor.passed }

def advance (bytes : Nat) : Walk Unit := do
  moveTo ((← get).offset + bytes)

def report (fault : Fault) : Walk Unit :=
  modify fun cursor => { cursor with faults := cursor.faults ++ [fault] }

/-- The text that another walk passes. -/
def taking (source : String) (walk : Walk Unit) : Walk (List Char) := do
  let start ← get
  walk
  let stop ← get
  slice? start.offset stop.offset source.toList

def atEnd (source : String) : Walk Bool := do
  return byteSize source.toList ≤ (← get).offset

def peek (source : String) : Walk (Option Char) := do
  return (← remaining source).head?

def eat (source : String) (c : Char) : Walk Bool := do
  if (← peek source) = some c then
    advance c.utf8Size
    return true
  else
    return false

def passWhile (source : String) (p : Char → Bool) : Nat → Walk Unit
  | 0 => failure
  | rounds + 1 => do
      match ← peek source with
      | some c =>
          if p c then
            advance c.utf8Size
            passWhile source p rounds
          else
            return
      | none => return

variable {source : String} {s t text rest : List Char} {c : Char}

theorem reads_remaining : Reads source s (remaining source) (s, [], s) := by
  intro cursor hcursor
  obtain ⟨front, hsource, hoffset⟩ := hcursor.place
  have hslice : slice? cursor.offset (byteSize source.toList) source.toList = some s := by
    have hcut := slice?_append front s []
    rw [List.append_nil, ← byteSize_append, ← hsource, ← hoffset] at hcut
    exact hcut
  refine ⟨cursor, ?_, hcursor, (List.append_nil _).symm⟩
  simp [remaining, hslice]

/-- The cursor may be moved to any place further on. -/
theorem reads_moveTo {offset : Nat} (hplace : IsPlace source offset t) (hsuffix : t <:+ s) :
    Reads source s (moveTo offset) ((), [], t) := by
  intro cursor hcursor
  have hle : cursor.offset ≤ offset := hcursor.place.le hplace hsuffix
  refine ⟨_, rfl, ⟨hplace, ?_, ?_⟩, (List.append_nil _).symm⟩
  · exact List.forall_mem_cons.mpr ⟨hcursor.place.isValid, hcursor.valid⟩
  · refine List.pairwise_cons.mpr ⟨List.forall_mem_cons.mpr ⟨hle, ?_⟩, hcursor.ascending⟩
    intro earlier hearlier
    exact ((List.pairwise_cons.mp hcursor.ascending).1 earlier hearlier).trans hle

theorem reads_advance (text : List Char) :
    Reads source (text ++ t) (advance (byteSize text)) ((), [], t) := by
  intro cursor hcursor
  obtain ⟨front, hsource, hoffset⟩ := hcursor.place
  have hplace : IsPlace source (cursor.offset + byteSize text) t := by
    refine ⟨front ++ text, ?_, ?_⟩
    · rw [hsource, List.append_assoc]
    · rw [hoffset, byteSize_append]
  exact reads_moveTo hplace (List.suffix_append text t) cursor hcursor

theorem reads_advance_char : Reads source (c :: t) (advance c.utf8Size) ((), [], t) :=
  reads_advance [c]

theorem reads_report (fault : Fault) : Reads source s (report fault) ((), [fault], s) := by
  intro cursor hcursor
  exact ⟨_, rfl, ⟨hcursor.place, hcursor.valid, hcursor.ascending⟩, rfl⟩

/-- A walk that stops with a fault. -/
theorem reads_fault {α : Type} (fault : Fault) (a : α) :
    Reads source s (do report fault; return a) (a, [fault], s) :=
  Reads.bind (reads_report fault) (Reads.result a)

theorem reads_atEnd : Reads source s (atEnd source) (s.isEmpty, [], s) := by
  intro cursor hcursor
  obtain ⟨front, hsource, hoffset⟩ := hcursor.place
  refine ⟨cursor, ?_, hcursor, (List.append_nil _).symm⟩
  have hend : decide (byteSize source.toList ≤ cursor.offset) = s.isEmpty := by
    rw [Bool.eq_iff_iff, decide_eq_true_eq, List.isEmpty_iff, hsource, byteSize_append, hoffset]
    constructor
    · intro hle
      by_contra hne
      have hpos := byteSize_pos hne
      omega
    · rintro rfl
      exact Nat.le_refl _
  simp [atEnd, hend]

theorem reads_peek : Reads source s (peek source) (s.head?, [], s) :=
  Reads.map List.head? reads_remaining

/-- The character that is asked for is eaten. -/
theorem reads_eat {α : Type} {yes no : Walk α} {outcome : α × List Fault × List Char}
    (hs : s = c :: t) (h : Reads source t yes outcome) :
    Reads source s (do if ← eat source c then yes else no) outcome := by
  have heat : Reads source s (eat source c) (true, [], t) := by
    subst hs
    refine Reads.step reads_peek ?_
    rw [if_pos List.head?_cons]
    exact Reads.step reads_advance_char (Reads.result true)
  exact Reads.step heat h

/-- In front of another character or the end nothing is eaten. -/
theorem reads_eat_other {α : Type} {yes no : Walk α} {outcome : α × List Fault × List Char}
    (hs : ∀ t, s ≠ c :: t) (h : Reads source s no outcome) :
    Reads source s (do if ← eat source c then yes else no) outcome := by
  have heat : Reads source s (eat source c) (false, [], s) := by
    refine Reads.step reads_peek ?_
    rw [if_neg]
    · exact Reads.result false
    · intro hhead
      obtain ⟨t, ht⟩ := List.head?_eq_some_iff.mp hhead
      exact hs t ht
  exact Reads.step heat h

theorem reads_passWhile (p : Char → Bool) {rounds : Nat} (hrounds : s.length < rounds) :
    Reads source s (passWhile source p rounds) ((), [], s.dropWhile p) := by
  induction s generalizing rounds with
  | nil =>
      obtain ⟨rounds, rfl⟩ := Nat.exists_eq_succ_of_ne_zero (Nat.ne_zero_of_lt hrounds)
      exact Reads.step reads_peek (Reads.result ())
  | cons c s ih =>
      obtain ⟨rounds, rfl⟩ := Nat.exists_eq_succ_of_ne_zero (Nat.ne_zero_of_lt hrounds)
      refine Reads.step reads_peek ?_
      by_cases hc : p c = true
      · rw [List.dropWhile_cons_of_pos hc]
        simp only [List.head?_cons, if_pos hc]
        exact Reads.step reads_advance_char (ih (Nat.lt_of_succ_lt_succ hrounds))
      · rw [List.dropWhile_cons_of_neg hc]
        simp only [List.head?_cons, if_neg hc]
        exact Reads.result ()

theorem reads_taking {walk : Walk Unit} (hs : s = text ++ t)
    (h : Reads source s walk ((), [], t)) : Reads source s (taking source walk) (text, [], t) := by
  subst hs
  intro cursor hcursor
  obtain ⟨front, hsource, hoffset⟩ := hcursor.place
  obtain ⟨last, hwalk, hlast, hfaults⟩ := h cursor hcursor
  obtain ⟨front', hsource', hoffset'⟩ := hlast.place
  have hfront : front' = front ++ text := by
    rw [hsource', ← List.append_assoc] at hsource
    exact List.append_cancel_right hsource
  have hslice := slice?_append front text t
  rw [← hsource, ← byteSize_append, ← hfront, ← hoffset, ← hoffset'] at hslice
  refine ⟨last, ?_, hlast, hfaults⟩
  simp [taking, hwalk, hslice]

theorem reads_takeWhile (p : Char → Bool) {rounds : Nat} (hrounds : s.length < rounds) :
    Reads source s (taking source (passWhile source p rounds))
      (s.takeWhile p, [], s.dropWhile p) :=
  reads_taking List.takeWhile_append_dropWhile.symm (reads_passWhile p hrounds)

end Movement

end Walk

end Stencil.Expression
