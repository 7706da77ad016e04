import Stencil.Proofs.Document.Balance
import Stencil.Proofs.Document.Preorder
import Stencil.Proofs.Expression.Steps
import Stencil.Proofs.Path.Segments
import Stencil.Template

/-!
The paths of a valid template were read from its text. What is wrong inside a
token is among the errors of the template, wherever the token stands, and an
expression whose path could not be read has an error.
-/

namespace Stencil

/-- An expression that is read without errors has a path that was read. -/
theorem Expression.isRead_of_read {source : String} {span : Span}
    (h : (read source span).2 = []) : (read source span).1.path.IsRead := by
  obtain ⟨hchain, -⟩ := List.append_eq_nil_iff.mp (List.map_eq_nil_iff.mp h)
  have hstep : (readChain source span source.toList).outcome = _ := readChain_step
  obtain ⟨hvalue, hfaults, -⟩ := Reading.outcome_iff.mp hstep
  rw [hfaults] at hchain
  obtain ⟨hpath, -⟩ := List.append_eq_nil_iff.mp hchain
  have hread : (read source span).1 = (readChain source span source.toList).value := rfl
  rw [hread, hvalue]
  cases hparse : Path.parse
      (String.ofList ((Text.trimStart source.toList).takeWhile isPathChar)) with
  | error cause =>
      rw [(Reading.outcome_iff.mp (readPath_error hparse)).2.1] at hpath
      cases hpath
  | ok path =>
      rw [(Reading.outcome_iff.mp (readPath_path hparse)).1]
      exact ⟨_, hparse⟩

/-- The path of an output or a section is one that was read. -/
def Item.Label.IsRead : Item.Label → Prop
  | .output expression _ _ | .block _ expression => expression.path.IsRead
  | .literal _ | .reference .. | .declaration _ | .custom .. => True

def Item.IsRead (item : Item) : Prop :=
  item.label.IsRead

/-- The item of a token without errors has a path that was read. -/
theorem Token.isRead_of_label? {token : Token} (herrors : token.ownErrors = [])
    {escaping : Bool} {label : Item.Label} (hlabel : token.label? escaping = some label) :
    label.IsRead := by
  obtain ⟨kind, value, span⟩ := token
  cases kind with
  | text =>
      obtain rfl := Option.some.inj hlabel
      trivial
  | expression escape =>
      obtain rfl := Option.some.inj hlabel
      exact Expression.isRead_of_read herrors
  | opening block name =>
      cases block with
      | ofSection kind =>
          obtain rfl := Option.some.inj hlabel
          exact Expression.isRead_of_read herrors
      | declaration =>
          obtain rfl := Option.some.inj hlabel
          trivial
  | reference =>
      simp only [label?] at hlabel
      split at hlabel
      · cases hlabel
      · obtain rfl := Option.some.inj hlabel
        trivial
  | comment | closing | otherwise | custom => cases hlabel

namespace Builder

variable {escaping : Bool} {builder after : Builder} {index : Nat} {token : Token}

theorem Step.ownErrors_subset (h : Step escaping index token builder after) :
    token.ownErrors ⊆ after.errors := by
  cases h with
  | grows isSingle result =>
      rw [result, errors_grow]
      exact List.subset_append_right _ _
  | opens opens result =>
      rw [result]
      exact List.subset_append_right _ _
  | closes closes inside named result =>
      simp only [Token.ownErrors, closes, List.nil_subset]
  | branches isElse inside isSection isWhole result =>
      simp only [Token.ownErrors, isElse, List.nil_subset]
  | refuses fault unexpected refused result =>
      rcases refused with hkind | hkind | ⟨provider, hkind⟩ <;>
        simp only [Token.ownErrors, hkind, List.nil_subset]

/-- What is wrong inside a token of a run is among the errors after it. -/
theorem ownErrors_subset_addTokens (tokens : List Token) :
    ∀ token ∈ tokens, token.ownErrors ⊆ (builder.addTokens escaping [] index tokens).errors := by
  induction tokens generalizing builder index with
  | nil =>
      intro token htoken
      cases htoken
  | cons first tokens ih =>
      let next := builder.addBuiltin escaping index first
      have hfirst : first.ownErrors ⊆ next.errors :=
        (builder.step_addBuiltin escaping index first).ownErrors_subset
      have hrest : next.errors <+: (next.addTokens escaping [] (index + 1) tokens).errors :=
        errors_addTokens _ _ _ _
      rw [addTokens_cons]
      exact List.forall_mem_cons.mpr ⟨List.Subset.trans hfirst hrest.subset, ih⟩

end Builder

/-- Where tokens form a tree without errors, its paths were read. -/
theorem Item.isRead_of_ofTokens {escaping : Bool} {tokens : List Token}
    (h : (ofTokens escaping [] tokens).2 = []) :
    ∀ item ∈ walkAll (ofTokens escaping [] tokens).1, item.IsRead := by
  intro item hitem
  have hmem : item.label ∈ labels (ofTokens escaping [] tokens).1 := List.mem_map_of_mem hitem
  rw [labels_ofTokens] at hmem
  obtain ⟨token, htoken, hlabel⟩ := List.mem_filterMap.mp hmem
  have hown : token.ownErrors ⊆ (ofTokens escaping [] tokens).2 :=
    List.Subset.trans (Builder.ownErrors_subset_addTokens tokens token htoken)
      (Builder.errors_closeAll _ _ _).subset
  rw [h] at hown
  exact Token.isRead_of_label? (List.subset_nil.mp hown) hlabel

/-- In a valid template that no provider takes part in, every path was read. -/
theorem Template.isRead_of_isValid {options : Options} {source : String}
    (hproviders : options.providers = []) (hvalid : (parse options source).isValid = true) :
    ∀ item ∈ Item.walkAll (parse options source).document.items, item.IsRead := by
  have herrors : (Document.parse options.settings options.providers source).errors = [] :=
    List.isEmpty_iff.mp hvalid
  unfold parse Document.parse
  unfold Document.parse at herrors
  rw [hproviders] at herrors ⊢
  have hnone := List.append_eq_nil_iff.mp
    (List.perm_nil.mp ((List.mergeSort_perm _ _).symm.trans (.of_eq herrors)))
  exact Item.isRead_of_ofTokens hnone.2

/-- The paths of a template are as texts spell them: it is a valid template that no
provider takes part in, or it is built of such paths. -/
inductive Template.HasReadPaths : Template → Prop where
  | parsed {options : Options} {source : String} (builtin : options.providers = [])
      (isValid : (parse options source).isValid = true) : HasReadPaths (parse options source)
  | built {template : Template}
      (isRead : ∀ item ∈ Item.walkAll template.document.items, item.IsRead) :
      HasReadPaths template

theorem Template.HasReadPaths.isRead {template : Template} (h : template.HasReadPaths) :
    ∀ item ∈ Item.walkAll template.document.items, item.IsRead := by
  cases h with
  | parsed builtin isValid => exact isRead_of_isValid builtin isValid
  | built isRead => exact isRead

end Stencil
