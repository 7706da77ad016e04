import Stencil.Proofs.Expression.Soundness

/-!
Recovery from a call whose two arguments have no comma between them. Reading goes on at the
next bar outside quotes and parentheses, which are counted from the second argument on. If
that leads behind the call, whatever the second argument is made of, the rest of the chain
is kept and the call is all that is lost.
-/

namespace Stencil.Expression

open Text

section Skipping

variable {s t : List Char} {c : Char} {state next : Nat × Option Char}

/-- The depth of parentheses and the open quote behind a character, unless recovery stops
in front of it. -/
def skip : Nat × Option Char → Char → Option (Nat × Option Char)
  | (depth, some quote), c => some (depth, if c = quote then none else some quote)
  | (depth, none), c =>
      if c = '"' ∨ c = '\'' then some (depth, some c)
      else if c = '(' then some (depth + 1, none)
      else if c = ')' then some (depth - 1, none)
      else if c = '|' ∧ depth = 0 then none
      else some (depth, none)

/-- A text that recovery passes over together with a closing parenthesis behind it. -/
def PassedOver (s : List Char) : Prop :=
  ∃ depth ≤ 1, s.foldlM skip (0, none) = some (depth, none)

theorem recover_cons (state : Nat × Option Char) (c : Char) (s : List Char) :
    recover state.1 state.2 (c :: s) =
      match skip state c with
      | some next => recover next.1 next.2 s
      | none => c :: s := by
  obtain ⟨depth, quote⟩ := state
  cases quote with
  | some quote => rfl
  | none =>
      simp only [recover, skip]
      split_ifs <;> rfl

/-- Recovery stops at bars only. -/
theorem eq_bar_of_skip (h : skip state c = none) : c = '|' := by
  obtain ⟨depth, quote⟩ := state
  cases quote with
  | some quote => cases h
  | none =>
      simp only [skip] at h
      split_ifs at h with _ _ _ hbar
      exact hbar.1

theorem recover_append (h : s.foldlM skip state = some next) (t : List Char) :
    recover state.1 state.2 (s ++ t) = recover next.1 next.2 t := by
  induction s generalizing state with
  | nil =>
      obtain rfl := Option.some.inj h
      rfl
  | cons c s ih =>
      rw [List.foldlM_cons] at h
      obtain ⟨between, hskip, hrest⟩ := Option.bind_eq_some_iff.mp h
      rw [List.cons_append, recover_cons, hskip]
      exact ih hrest

theorem recover_stopped (h : s.foldlM skip state = none) (t : List Char) :
    ∃ more, recover state.1 state.2 (s ++ t) = '|' :: (more ++ t) := by
  induction s generalizing state with
  | nil => cases h
  | cons c s ih =>
      rw [List.foldlM_cons] at h
      rw [List.cons_append, recover_cons]
      cases hskip : skip state c with
      | none =>
          obtain rfl := eq_bar_of_skip hskip
          exact ⟨s, rfl⟩
      | some next =>
          rw [hskip] at h
          exact ih h

/-- A character opens no quote but its own. -/
theorem isQuote_of_skip (h : skip state c = some next)
    (hstate : ∀ quote ∈ state.2, quote = '"' ∨ quote = '\'') :
    ∀ quote ∈ next.2, quote = '"' ∨ quote = '\'' := by
  obtain ⟨depth, quote⟩ := state
  cases quote with
  | some quote =>
      obtain rfl := Option.some.inj h
      intro other hother
      split_ifs at hother
      · cases hother
      · exact hstate other hother
  | none =>
      simp only [skip] at h
      split_ifs at h with hquote
      all_goals
        obtain rfl := Option.some.inj h
        intro other hother
      · obtain rfl := Option.some.inj hother
        exact hquote
      all_goals cases hother

theorem isQuote_of_foldlM_skip (h : s.foldlM skip state = some next)
    (hstate : ∀ quote ∈ state.2, quote = '"' ∨ quote = '\'') :
    ∀ quote ∈ next.2, quote = '"' ∨ quote = '\'' := by
  induction s generalizing state with
  | nil =>
      obtain rfl := Option.some.inj h
      exact hstate
  | cons c s ih =>
      rw [List.foldlM_cons] at h
      obtain ⟨between, hskip, hrest⟩ := Option.bind_eq_some_iff.mp h
      exact ih hrest (isQuote_of_skip hskip hstate)

/-- The characters that guide recovery. -/
def guides : List Char := ['"', '\'', '(', ')', '|']

/-- Characters of a class without guides change nothing outside quotes. -/
theorem foldlM_skip_plain {p : Char → Bool} (hguides : guides.any p = false)
    (h : ∀ c ∈ s, p c = true) (depth : Nat) :
    s.foldlM skip (depth, none) = some (depth, none) := by
  induction s with
  | nil => rfl
  | cons c s ih =>
      have hc : c ∉ guides := by
        intro hmem
        have hnot := forall_of_any_eq_false hguides c hmem
        rw [h c (List.mem_cons_self ..)] at hnot
        cases hnot
      have hskip : skip (depth, none) c = some (depth, none) := by
        simp only [guides, List.mem_cons, List.not_mem_nil, or_false, not_or] at hc
        simp [skip, hc]
      rw [List.foldlM_cons, hskip]
      exact ih fun d hd => h d (List.mem_cons_of_mem _ hd)

theorem foldlM_skip_quoted {quote : Char} (h : quote ∉ s) (depth : Nat) :
    s.foldlM skip (depth, some quote) = some (depth, some quote) := by
  induction s with
  | nil => rfl
  | cons c s ih =>
      obtain ⟨hc, hs⟩ := not_or.mp (List.mem_cons.not.mp h)
      have hskip : skip (depth, some quote) c = some (depth, some quote) := by
        simp [skip, Ne.symm hc]
      rw [List.foldlM_cons, hskip]
      exact ih hs

theorem recover_blanks {before : List Char} (hbefore : AllBlank before) (depth : Nat)
    (s : List Char) : recover depth none (before ++ s) = recover depth none s :=
  recover_append (foldlM_skip_plain rfl hbefore depth) s

/-- Recovery goes on behind the parenthesis after a text that is passed over. -/
theorem PassedOver.recover_close {close : List Char} (h : PassedOver s) (hclose : AllBlank close)
    (t : List Char) : recover 0 none (s ++ (close ++ ')' :: t)) = recover 0 none t := by
  obtain ⟨depth, hdepth, hs⟩ := h
  rw [recover_append hs, recover_blanks hclose]
  have hzero : depth - 1 = 0 := by omega
  rw [← hzero]
  rfl

theorem recover_bar {before : List Char} (hbefore : AllBlank before) (t : List Char) :
    recover 0 none (before ++ '|' :: t) = '|' :: t := by
  rw [recover_blanks hbefore]
  rfl

end Skipping

section Arguments

variable {s rest : List Char} {span : Span} {calls : List FormatterCall} {argument : Argument}

theorem passedOver_plain (h : ∀ c ∈ s, isPathChar c = true) : PassedOver s :=
  ⟨0, Nat.zero_le 1, foldlM_skip_plain rfl h 0⟩

theorem passedOver_quoted {quote : Char} (hquote : quote = '"' ∨ quote = '\'')
    (h : quote ∉ s) : PassedOver (quote :: (s ++ [quote])) := by
  have hopen : skip (0, none) quote = some (0, some quote) := by simp [skip, hquote]
  have hclose : skip (0, some quote) quote = some (0, none) := by simp [skip]
  refine ⟨0, Nat.zero_le 1, ?_⟩
  simp [hopen, foldlM_skip_quoted h, hclose]

/-- Recovery is not misled by an argument without calls that has its own quotes only around
it. -/
theorem ArgumentText.passedOver (h : ArgumentText span s argument)
    (hcalls : ∀ expression, argument = .nested expression → expression.calls = [])
    (hquotes : ∀ quote body, (quote = '"' ∨ quote = '\'') → s = quote :: (body ++ [quote]) →
      quote ∉ body) : PassedOver s := by
  cases h with
  | literal text =>
      cases text with
      | string hquote quoted => exact passedOver_quoted hquote (hquotes _ _ hquote rfl)
      | number number => exact passedOver_plain number.chars
      | keyword hmem =>
          refine passedOver_plain ?_
          simp only [keywords, List.mem_cons, Prod.mk.injEq, List.not_mem_nil, or_false] at hmem
          rcases hmem with ⟨rfl, -⟩ | ⟨rfl, -⟩ | ⟨rfl, -⟩
          all_goals exact List.all_eq_true.mp rfl
  | nested text hstart =>
      cases text with
      | mk hname hchars hpath more =>
          obtain rfl := hcalls _ rfl
          cases more
          rw [List.append_nil]
          exact passedOver_plain hchars

/-- Recovery stops at the first of several calls. -/
theorem CallsText.trimStart_recover (h : CallsText span s calls)
    (hrest : calls = [] → AllBlank rest) :
    trimStart (recover 0 none (s ++ rest)) = trimStart (s ++ rest) := by
  cases h with
  | nil =>
      have hnone : recover 0 none (rest ++ []) = [] := recover_blanks (hrest rfl) 0 []
      rw [List.append_nil] at hnone
      rw [List.nil_append, hnone, trimStart_of_allBlank (hrest rfl), trimStart_nil]
  | cons hbefore =>
      rw [List.append_assoc, List.cons_append, recover_bar hbefore, trimStart_append hbefore]

end Arguments

section Bars

variable {s close rest : List Char} {source name : String} {span : Span}

theorem count_bar_of_allBlank (h : AllBlank s) : s.count '|' = 0 :=
  List.count_eq_zero.mpr fun hmem => absurd (h _ hmem) (by decide)

theorem IsIdentifier.count_bar (h : IsIdentifier s) : s.count '|' = 0 :=
  List.count_eq_zero.mpr fun hmem => absurd (h.chars _ hmem) (by decide)

/-- A chain of one call without arguments has one bar. -/
theorem CallsText.count_bar (h : CallsText span s [⟨name, []⟩]) : s.count '|' = 1 := by
  cases h with
  | cons hbefore hafter first more =>
      cases more
      cases first with
      | bare hname =>
          simp [count_bar_of_allBlank hbefore, count_bar_of_allBlank hafter, hname.count_bar]
      | empty hname hlist hinside =>
          simp [count_bar_of_allBlank hbefore, count_bar_of_allBlank hafter, hname.count_bar,
            count_bar_of_allBlank hlist, count_bar_of_allBlank hinside]
      | arguments hname hlist hinside list => cases list

/-- So has every text in which nothing else is found. -/
theorem count_bar_of_readCalls
    (hread : (readCalls source span s).outcome = ([⟨name, []⟩], [], rest))
    (hrest : trimStart rest = []) : s.count '|' = 1 := by
  have hderives := (derives_readers source span).2.1 s
  rw [hread] at hderives
  obtain ⟨t, after, hs, hafter, htext⟩ := hderives rfl [] allBlank_nil
  obtain ⟨blanks, hblanks, rfl⟩ := exists_blanks hrest
  rw [List.nil_append] at hs
  rw [hs]
  simp [htext.count_bar, count_bar_of_allBlank hafter, count_bar_of_allBlank hblanks]

/-- If one bar is left after recovery, that of the call behind, the text is passed over. -/
theorem passedOver_of_count (hclose : AllBlank close)
    (h : (recover 0 none (s ++ (close ++ ')' :: [' ', '|', ' ', 'g']))).count '|' = 1) :
    PassedOver s := by
  cases hskip : s.foldlM skip (0, none) with
  | none =>
      -- recovery stops inside the text, at a bar before that of the call
      obtain ⟨more, hmore⟩ := recover_stopped hskip (close ++ ')' :: [' ', '|', ' ', 'g'])
      rw [hmore] at h
      simp at h
  | some next =>
      rw [recover_append hskip] at h
      obtain ⟨depth, quote⟩ := next
      cases quote with
      | some quote =>
          -- a quote that is still open hides the bar
          have hquote : quote = '"' ∨ quote = '\'' :=
            isQuote_of_foldlM_skip hskip (fun _ hnone => by cases hnone) quote rfl
          have hhidden : quote ∉ close ++ ')' :: [' ', '|', ' ', 'g'] := by
            intro hmem
            rcases List.mem_append.mp hmem with hblank | hrest
            · have hc := hclose quote hblank
              rcases hquote with rfl | rfl <;> cases hc
            · rcases hquote with rfl | rfl <;> simp at hrest
          have hnone := recover_append (foldlM_skip_quoted hhidden depth) []
          rw [List.append_nil] at hnone
          rw [hnone] at h
          cases h
      | none =>
          rcases Nat.lt_or_ge 1 depth with hdeep | hdepth
          · -- and so does a parenthesis that the one behind the text does not close
            obtain ⟨deeper, rfl⟩ := Nat.exists_eq_add_of_le hdeep
            rw [recover_blanks hclose] at h
            simp [recover] at h
          · exact ⟨depth, hdepth, hskip⟩

end Bars

section Front

variable {span : Span} {front rest : List Char} {path : Path} {earlier : List FormatterCall}
  {formatter : String}

/-- The front of an expression in which a call has white space where a comma belongs: the
path with the calls before that one, its name, and its first argument. -/
inductive BrokenFront (span : Span) : List Char → Path → List FormatterCall → String → Prop where
  | mk {before chain beforeBar afterBar name beforeList inside first between : List Char}
      {path : Path} {earlier : List FormatterCall} {argument : Argument}
      (hbefore : AllBlank before) (hchain : ChainText span chain ⟨path, earlier, span⟩)
      (hbeforeBar : AllBlank beforeBar) (hafterBar : AllBlank afterBar)
      (hname : IsIdentifier name) (hbeforeList : AllBlank beforeList)
      (hinside : AllBlank inside) (hfirst : ArgumentText span first argument)
      (hbetween : AllBlank between) (hsome : between ≠ []) :
      BrokenFront span (before ++ (chain ++ (beforeBar ++ '|' :: (afterBar ++ (name ++
        (beforeList ++ '(' :: (inside ++ (first ++ between)))))))) path earlier
        (String.ofList name)

/-- An argument may follow another one after white space, as far as that one is concerned. -/
theorem follows_argument {between : List Char} {c : Char} (hbetween : AllBlank between)
    (hsome : between ≠ []) (hc : opensArgument c = true) (t : List Char) :
    Follows (between ++ c :: t) := by
  have htrim : trimStart (between ++ c :: t) = c :: t := by
    rw [trimStart_append hbetween, trimStart_cons (not_isBlank_of_opensArgument hc)]
  refine ⟨?_, ?_, ?_⟩
  · obtain ⟨d, between, rfl⟩ := List.exists_cons_of_ne_nil hsome
    simp [atBoundary, hbetween d (List.mem_cons_self ..)]
  · intro u hu
    rw [htrim] at hu
    exact ne_of_opensArgument hc rfl (List.cons.inj hu).1
  · intro u hu
    rw [htrim] at hu
    exact ne_of_opensArgument hc rfl (List.cons.inj hu).1

/-- A call is broken off in front of an argument that no comma separates from the one
before it. -/
theorem readCall_broken (source : String) {name beforeList inside first between : List Char}
    {argument : Argument} {c : Char} (hname : IsIdentifier name)
    (hbeforeList : AllBlank beforeList) (hinside : AllBlank inside)
    (hfirst : ArgumentText span first argument) (hbetween : AllBlank between)
    (hsome : between ≠ []) (hc : opensArgument c = true) (t : List Char) :
    (readCall source span
      (name ++ (beforeList ++ '(' :: (inside ++ (first ++ (between ++ c :: t)))))).outcome =
      (none, [.missingComma (String.ofList name)], c :: t) := by
  have htrim : trimStart (between ++ c :: t) = c :: t := by
    rw [trimStart_append hbetween, trimStart_cons (not_isBlank_of_opensArgument hc)]
  obtain ⟨d, u, hs, hopens⟩ := hfirst.head
  obtain ⟨rest, houtcome, hsame⟩ :=
    hfirst.reads source allBlank_nil (follows_argument hbetween hsome hc t)
  rw [List.nil_append] at houtcome
  obtain ⟨hvalue, hfaults, hrest⟩ := Reading.outcome_iff.mp houtcome
  rw [htrim, ← hrest] at hsame
  have hcomma : ∀ v, c :: t ≠ ',' :: v := fun v hv =>
    ne_of_opensArgument hc rfl (List.cons.inj hv).1
  have hclose : ∀ v, c :: t ≠ ')' :: v := fun v hv =>
    ne_of_opensArgument hc rfl (List.cons.inj hv).1
  rw [← hsame] at hcomma hclose
  have hbroken : (readArguments source span (String.ofList name)
      (first ++ (between ++ c :: t))).outcome = _ := readArguments_broken hvalue hcomma hclose
  rw [hsame, hfaults] at hbroken
  obtain ⟨hnone, hfault, hlast⟩ := Reading.outcome_iff.mp hbroken
  rw [readCall_list source span hname hbeforeList hinside (by rw [hs]; rfl) hopens]
  simp only [hnone, hfault, hlast]
  rfl

/-- Behind the front of a broken call the chain is what reading finds after recovery. -/
theorem BrokenFront.reads (h : BrokenFront span front path earlier formatter) (source : String)
    {s t : List Char} {c : Char} (hs : s = c :: t) (hc : opensArgument c = true) :
    (readChain source span (front ++ s)).outcome =
      let more := readCalls source span (recover 0 none s)
      (⟨path, earlier ++ more.value, span⟩, .missingComma formatter :: more.faults,
        more.rest) := by
  obtain ⟨hbefore, hchain, hbeforeBar, hafterBar, hname, hbeforeList, hinside, hfirst, hbetween,
    hsome⟩ := h
  rename_i before chain beforeBar afterBar name beforeList inside first between argument
  obtain ⟨list, hlist⟩ : ∃ list, list =
    beforeList ++ '(' :: (inside ++ (first ++ (between ++ s))) := ⟨_, rfl⟩
  have happend : before ++ (chain ++ (beforeBar ++ '|' :: (afterBar ++ (name ++ (beforeList ++
      '(' :: (inside ++ (first ++ between))))))) ++ s =
      before ++ (chain ++ (beforeBar ++ '|' :: (afterBar ++ (name ++ list)))) := by
    simp [hlist]
  have hbar : trimStart (beforeBar ++ '|' :: (afterBar ++ (name ++ list))) =
      '|' :: (afterBar ++ (name ++ list)) := by
    rw [trimStart_append hbeforeBar, trimStart_cons rfl]
  have htrim : trimStart (afterBar ++ (name ++ list)) = name ++ list := by
    obtain ⟨d, u, rfl, hblank⟩ := hname.head
    rw [trimStart_append hafterBar, List.cons_append, trimStart_cons hblank]
  have hcall : (readCall source span (name ++ list)).outcome =
      (none, [.missingComma (String.ofList name)], s) := by
    rw [hlist, hs]
    exact readCall_broken source hname hbeforeList hinside hfirst hbetween hsome hc t
  obtain ⟨hnone, hfaults, hrest⟩ := Reading.outcome_iff.mp hcall
  rw [← htrim] at hnone hfaults hrest
  have hcalls := readCalls_malformed hbar hnone
  simp only [hfaults] at hcalls
  rw [hrest] at hcalls
  obtain ⟨hvalue, hmore, hlast⟩ := Reading.outcome_iff.mp hcalls
  have hread := hchain.readsOn source (endsCall_bar hbeforeBar (afterBar ++ (name ++ list)))
  simp only [hmore] at hread
  rw [hvalue, hlast] at hread
  rw [happend, readChain_congr source span (trimStart_append hbefore), hread]
  rfl

/-- An expression with a broken call is read as that without the call, and goes on where
recovery leads. -/
theorem BrokenFront.read_eq (h : BrokenFront span front path earlier formatter)
    {source : String} {s t : List Char} {c : Char} (hsource : source.toList = front ++ s)
    (hs : s = c :: t) (hc : opensArgument c = true) {calls : List FormatterCall}
    {faults : List Fault}
    (hmore : (readCalls source span (recover 0 none s)).outcome = (calls, faults, rest)) :
    let expression : Expression := ⟨path, earlier ++ calls, span⟩
    read source span = (expression, (.missingComma formatter :: (faults ++
      trailingFaults source expression (trimStart rest))).map (⟨·, span⟩)) := by
  obtain ⟨hcalls, hfaults, hrest⟩ := Reading.outcome_iff.mp hmore
  have hreads := h.reads source hs hc
  simp only [hfaults, hrest] at hreads
  rw [hcalls, ← hsource] at hreads
  obtain ⟨hvalue, hall, hlast⟩ := Reading.outcome_iff.mp hreads
  simp only [read, hvalue, hall, hlast, List.cons_append]

variable {second close : List Char} {argument : Argument}

/-- Behind an argument that is passed over the rest of the chain is kept. -/
theorem BrokenFront.read_passedOver (h : BrokenFront span front path earlier formatter)
    (hsecond : ArgumentText span second argument) (hpassed : PassedOver second)
    (hclose : AllBlank close) {source : String} {tail after : List Char}
    {later : List FormatterCall} (htail : CallsText span tail later) (hafter : AllBlank after)
    (hsource : source.toList = front ++ (second ++ (close ++ ')' :: (tail ++ after)))) :
    read source span = (⟨path, earlier ++ later, span⟩, [⟨.missingComma formatter, span⟩]) := by
  obtain ⟨c, t, hs, hc⟩ := hsecond.head
  have hmore : (readCalls source span (recover 0 none
      (second ++ (close ++ ')' :: (tail ++ after))))).outcome = (later, [], []) := by
    rw [hpassed.recover_close hclose,
      readCalls_congr source span (htail.trimStart_recover fun _ => hafter),
      htail.reads source (follows_of_allBlank hafter), trimStart_of_allBlank hafter]
  rw [h.read_eq hsource (by rw [hs]; rfl) hc hmore]
  rfl

/-- Where the second argument is an expression with calls, these are taken for calls of the
chain, and the calls behind the broken one are lost. -/
theorem BrokenFront.read_nested (h : BrokenFront span front path earlier formatter)
    {expression : Expression} (hsecond : ChainText span second expression)
    (hcalls : expression.calls ≠ []) (hclose : AllBlank close) {source : String}
    (hsource : source.toList = front ++ (second ++ (close ++ ')' :: rest))) :
    read source span = (⟨path, earlier ++ expression.calls, span⟩,
      [⟨.missingComma formatter, span⟩,
        ⟨.trailing true (String.ofList (')' :: rest)) source, span⟩]) := by
  obtain ⟨c, t, hs, hc⟩ := hsecond.head
  obtain ⟨hname, hchars, hpath, htail⟩ := hsecond
  rename_i inner name tail calls
  have hfollows : Follows (close ++ ')' :: rest) := follows_append rest hclose (Or.inr rfl)
  have htrim : trimStart (close ++ ')' :: rest) = ')' :: rest := by
    rw [trimStart_append hclose, trimStart_cons rfl]
  have hskip : recover 0 none (name ++ (tail ++ (close ++ ')' :: rest))) =
      recover 0 none (tail ++ (close ++ ')' :: rest)) :=
    recover_append (foldlM_skip_plain rfl hchars 0) _
  have hmore : (readCalls source span (recover 0 none
      (name ++ tail ++ (close ++ ')' :: rest)))).outcome = (calls, [], ')' :: rest) := by
    rw [List.append_assoc, hskip,
      readCalls_congr source span (htail.trimStart_recover fun hnone => absurd hnone hcalls),
      htail.reads source hfollows, htrim]
  rw [h.read_eq hsource (by rw [hs]; rfl) (opensArgument_of_isPathChar hc) hmore]
  have hsome : (earlier ++ calls).isEmpty = false := by
    rw [List.isEmpty_eq_false_iff]
    exact List.append_ne_nil_of_right_ne_nil earlier hcalls
  have hparen : trimStart (')' :: rest) = ')' :: rest := trimStart_cons rfl
  simp [trailingFaults, hparen, hsome]

/-- What a broken call costs at least: one error, about a malformed call, and the call. -/
structure CostsItself (reading : Expression × List ParseError) (others : List FormatterCall) :
    Prop where
  calls : reading.1.calls = others
  error : ∃ error, reading.2 = [error] ∧ error.kind = .malformedFormatter

/-- If one call behind the broken one is kept, the second argument is passed over. -/
theorem BrokenFront.passedOver_of_costsItself (h : BrokenFront span front path earlier formatter)
    (hsecond : ArgumentText span second argument) (hclose : AllBlank close) {source : String}
    (hsource : source.toList = front ++ (second ++ (close ++ ')' :: [' ', '|', ' ', 'g'])))
    (hcosts : CostsItself (read source span) (earlier ++ [⟨"g", []⟩])) :
    PassedOver second := by
  obtain ⟨c, t, hs, hc⟩ := hsecond.head
  rw [h.read_eq hsource (by rw [hs]; rfl) hc rfl] at hcosts
  obtain ⟨hcalls, error, herrors, -⟩ := hcosts
  have hvalue := List.append_cancel_left hcalls
  obtain ⟨-, hnone⟩ := List.cons.inj herrors
  obtain ⟨hfaults, htrailing⟩ := List.append_eq_nil_iff.mp (List.map_eq_nil_iff.mp hnone)
  exact passedOver_of_count hclose (count_bar_of_readCalls
    (Reading.outcome_iff.mpr ⟨hvalue, hfaults, rfl⟩) (trailingFaults_eq_nil_iff.mp htrailing))

end Front

theorem callsText_g (span : Span) : CallsText span [' ', '|', ' ', 'g'] [⟨"g", []⟩] := by
  have hname : IsIdentifier ['g'] := ⟨by simp, List.all_eq_true.mp rfl⟩
  exact .cons allBlank_space allBlank_space (.bare hname) .nil

/-- The front of an expression with the call `f(1 `. -/
theorem brokenFront_first (span : Span) :
    BrokenFront span ['p', ' ', '|', ' ', 'f', '(', '1', ' '] ⟨[.name "p"], "p"⟩ [] "f" := by
  have hchain : ChainText span ['p'] ⟨⟨[.name "p"], "p"⟩, [], span⟩ := by
    have hpath : Path.parse "p" = .ok ⟨[.name "p"], "p"⟩ := by rfl
    have htext : ChainText span (['p'] ++ []) _ :=
      .mk (by simp) (List.all_eq_true.mp rfl) hpath .nil
    exact htext
  have hname : IsIdentifier ['f'] := ⟨by simp, List.all_eq_true.mp rfl⟩
  have hone : ArgumentText span ['1'] (.literal (.int 1)) := by
    have htext : NumberText ([] ++ ['1']) (.int 1) :=
      .mk (Or.inl rfl) rfl (List.all_eq_true.mp rfl) rfl
    exact .literal (.number htext)
  exact .mk allBlank_nil hchain allBlank_space allBlank_space hname allBlank_nil allBlank_nil hone
    allBlank_space (by simp)

/-- A call with white space where a comma belongs costs only itself exactly if recovery
passes over its second argument: reading reports the one error and keeps every other call,
whatever calls follow. It does so for every argument without calls whose own quotes stand
only around it. Where the second argument is an expression with calls, these get into the
chain instead of those behind the broken call, and a second error is reported. -/
theorem broken_call_costs_itself {span : Span} {front second close : List Char} {path : Path}
    {earlier : List FormatterCall} {formatter : String} {argument : Argument}
    (hfront : BrokenFront span front path earlier formatter)
    (hsecond : ArgumentText span second argument) (hclose : AllBlank close) :
    let source (rest : List Char) := String.ofList (front ++ (second ++ (close ++ ')' :: rest)))
    (PassedOver second ↔ ∀ tail later after, CallsText span tail later → AllBlank after →
      CostsItself (read (source (tail ++ after)) span) (earlier ++ later)) ∧
    (PassedOver second → ∀ tail later after, CallsText span tail later → AllBlank after →
      read (source (tail ++ after)) span =
        (⟨path, earlier ++ later, span⟩, [⟨.missingComma formatter, span⟩])) ∧
    ((∀ expression, argument = .nested expression → expression.calls = []) →
      (∀ quote body, (quote = '"' ∨ quote = '\'') → second = quote :: (body ++ [quote]) →
        quote ∉ body) → PassedOver second) ∧
    ∀ expression, argument = .nested expression → expression.calls ≠ [] → ∀ rest,
      read (source rest) span = (⟨path, earlier ++ expression.calls, span⟩,
        [⟨.missingComma formatter, span⟩,
          ⟨.trailing true (String.ofList (')' :: rest)) (source rest), span⟩]) := by
  intro source
  have hsource (rest : List Char) :
      (source rest).toList = front ++ (second ++ (close ++ ')' :: rest)) := String.toList_ofList
  have hread (hpassed : PassedOver second) (tail : List Char) (later : List FormatterCall)
      (after : List Char) (htail : CallsText span tail later) (hafter : AllBlank after) :
      read (source (tail ++ after)) span =
        (⟨path, earlier ++ later, span⟩, [⟨.missingComma formatter, span⟩]) :=
    hfront.read_passedOver hsecond hpassed hclose htail hafter (hsource _)
  refine ⟨⟨?_, ?_⟩, hread, hsecond.passedOver, ?_⟩
  · intro hpassed tail later after htail hafter
    rw [hread hpassed tail later after htail hafter]
    exact ⟨rfl, _, rfl, rfl⟩
  · intro hcosts
    exact hfront.passedOver_of_costsItself hsecond hclose (hsource _)
      (hcosts _ _ [] (callsText_g span) allBlank_nil)
  · rintro expression rfl hcalls rest
    cases hsecond with
    | nested htext => exact hfront.read_nested htext hcalls hclose (hsource rest)

/-- A parenthesis and a bar between quotes do not mislead recovery. -/
theorem quoted_guides_are_passed_over :
    let span : Span := ⟨0, 20, 1, 1⟩
    let second : List Char := ['"', '(', '|', '"']
    BrokenFront span ['p', ' ', '|', ' ', 'f', '(', '1', ' '] ⟨[.name "p"], "p"⟩ [] "f" ∧
    ArgumentText span second (.literal (.string "(|")) ∧
    CallsText span [' ', '|', ' ', 'g'] [⟨"g", []⟩] ∧
    read "p | f(1 \"(|\") | g" span =
      (⟨⟨[.name "p"], "p"⟩, [⟨"g", []⟩], span⟩, [⟨.missingComma "f", span⟩]) := by
  intro span second
  have hfront := brokenFront_first span
  have hsecond : ArgumentText span ('"' :: (['(', '|'] ++ ['"'])) (.literal (.string "(|")) :=
    .literal (.string (Or.inl rfl) (.plain (by decide) (by decide)
      (.plain (by decide) (by decide) .nil)))
  have htail := callsText_g span
  obtain ⟨-, hread, hplain, -⟩ := broken_call_costs_itself hfront hsecond allBlank_nil
  have hpassed := hplain (fun _ hnested => by cases hnested) ?_
  · exact ⟨hfront, hsecond, htail, hread hpassed _ _ [] htail allBlank_nil⟩
  · intro quote body _ hbody
    obtain ⟨rfl, hends⟩ := List.cons.inj hbody
    rw [← List.append_cancel_right hends]
    decide

/-- The call of an argument gets into the chain. -/
theorem call_of_argument_goes_astray :
    ¬∀ (span : Span) (front second close tail after : List Char) (path : Path)
      (earlier later : List FormatterCall) (formatter : String) (argument : Argument),
      BrokenFront span front path earlier formatter → ArgumentText span second argument →
      AllBlank close → CallsText span tail later → AllBlank after →
      CostsItself (read (String.ofList (front ++ (second ++ (close ++ ')' :: (tail ++ after)))))
        span) (earlier ++ later) := by
  intro hcosts
  have hpath : Path.parse "a" = .ok ⟨[.name "a"], "a"⟩ := by rfl
  have hchain : ChainText ⟨0, 10, 1, 1⟩ (['a'] ++ [' ', '|', ' ', 'g'])
      ⟨⟨[.name "a"], "a"⟩, [⟨"g", []⟩], ⟨0, 10, 1, 1⟩⟩ :=
    .mk (by simp) (List.all_eq_true.mp rfl) hpath (callsText_g _)
  have hfront := brokenFront_first ⟨0, 10, 1, 1⟩
  have hone := hcosts _ _ _ [] [] [] _ _ _ _ _ hfront (.nested hchain ⟨rfl, rfl⟩) allBlank_nil
    .nil allBlank_nil
  rw [hfront.read_nested hchain (by simp) allBlank_nil (String.toList_ofList)] at hone
  cases hone.calls

end Stencil.Expression
