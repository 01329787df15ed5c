import PageBindings.Proofs.Binding.Grammar
import PageBindings.Proofs.Json.RoundTrip

/-!
# Declarations that are written out

Bindings that are written out and read again are the same, if no hint of an action has the name of the target and the
doubles in them read back (`Bindings.survives_rewriting`).  Bindings that were read have only such hints, and they can
be written within the nesting that was allowed for their own text.
-/

namespace PageBindings

open Json

namespace Action

variable {action : Action}

/-- The parts of an action are as maps and values are kept: sorted by name, each name once. -/
structure IsSorted (action : Action) : Prop where
  hints : (action.hints.map (·.1)).Pairwise (· < ·)
  hintValues : ∀ hint ∈ action.hints, hint.2.IsSorted
  parameters : ∀ endpoint ∈ action.endpoint, ∀ parameter ∈ endpoint.parameters, parameter.IsSorted

/-- No hint of the action has the name under which its target is declared. -/
def SparesTarget (action : Action) : Prop :=
  ∀ hint ∈ action.hints, hint.1 ≠ "target"

theorem pairwise_settings (h : action.IsSorted) : (action.settings.map (·.1)).Pairwise (· < ·) := by
  unfold settings
  split
  · exact pairwise_insertMember _ _ h.hints
  · exact h.hints

/-- The settings are the hints, and a string that names the target. -/
theorem settings_cases {m : String × Json} (h : m ∈ action.settings) :
    m ∈ action.hints ∨ ∃ target, m = ("target", .string target) := by
  unfold settings at h
  split at h
  · rename_i target _
    exact (mem_insertMember h).symm.imp_right fun he => ⟨target, he⟩
  · exact .inl h

theorem isSorted_declaration (h : action.IsSorted) : action.declaration.IsSorted := by
  refine ⟨trivial, ⟨pairwise_settings h, isSortedMembers_iff.2 fun m hm => ?_⟩,
    isSortedItems_iff.2 fun item hitem => ?_⟩
  · rcases settings_cases hm with hhint | ⟨target, rfl⟩
    · exact h.hintValues m hhint
    · exact trivial
  · obtain ⟨endpoint, hendpoint, rfl⟩ := Option.mem_map.1 (Option.mem_toList.1 hitem)
    exact ⟨trivial, isSortedItems_iff.2 (h.parameters endpoint hendpoint)⟩

/-- A declaration is nested as deeply as hints and endpoint are, and at least as deeply as its own lists. -/
theorem depth_declaration_le {limit : Nat} (hhints : ∀ hint ∈ action.hints, hint.2.depth ≤ limit)
    (hendpoint : ∀ endpoint ∈ action.endpoint, endpoint.declaration.depth ≤ limit + 1) :
    action.declaration.depth ≤ limit + 2 := by
  refine Nat.succ_le_succ (depthItems_le_iff.2 ?_)
  rw [List.forall_mem_cons, List.forall_mem_cons]
  refine ⟨Nat.zero_le _, Nat.succ_le_succ (depthMembers_le_iff.2 fun m hm => ?_), fun item hitem => ?_⟩
  · rcases settings_cases hm with hhint | ⟨target, rfl⟩
    · exact hhints m hhint
    · exact Nat.zero_le _
  · obtain ⟨endpoint, hmem, rfl⟩ := Option.mem_map.1 (Option.mem_toList.1 hitem)
    exact hendpoint endpoint hmem

end Action

namespace Bindings

variable {selfTarget : Option String} {action : Action} {bindings : Bindings}

/-- Bindings are kept sorted by event type, each type once, and their actions are sorted. -/
structure IsSorted (bindings : Bindings) : Prop where
  events : (bindings.events.map (·.1)).Pairwise (· < ·)
  actions : ∀ event ∈ bindings.events, ∀ action ∈ event.2, action.IsSorted

/-! ### Writing -/

private theorem hintsOf_eq_self {hints : List (String × Json)} (h : ∀ hint ∈ hints, hint.1 ≠ "target") :
    hintsOf hints = hints :=
  List.filter_eq_self.2 fun hint hmem => bne_iff_ne.2 (h hint hmem)

private theorem hintsOf_insertMember (value : Json) (members : List (String × Json)) :
    hintsOf (insertMember "target" value members) = hintsOf members := by
  unfold hintsOf
  induction members with
  | nil => rfl
  | cons m rest ih =>
    unfold insertMember
    split
    · rfl
    · split
      · rename_i he
        rw [List.filter_cons_of_neg (by simp), List.filter_cons_of_neg (by simp [← he])]
      · rw [List.filter_cons, List.filter_cons, ih]

/-- The declaration of an action has the form of that action. -/
theorem entryForm_declaration (h : action.SparesTarget) : EntryForm none action.declaration action := by
  obtain ⟨kind, target, hints, endpoint⟩ := action
  have hhints : hintsOf hints = hints := hintsOf_eq_self h
  have haim : TargetForm (Action.settings ⟨kind, target, hints, endpoint⟩) target := by
    cases target with
    | none =>
      refine .absent ?_
      have hnone : hints.find? (·.1 == "target") = none := by
        simpa [List.find?_eq_none] using fun name value hmem => h (name, value) hmem
      simp [Action.settings, member?, hnone]
    | some target => exact .text (member?_insertMember_self "target" (.string target) hints)
  have hsettings : hintsOf (Action.settings ⟨kind, target, hints, endpoint⟩) = hints := by
    cases target with
    | none => exact hhints
    | some target => exact (hintsOf_insertMember _ _).trans hhints
  have htarget : target.or none = target := Option.or_none
  cases endpoint with
  | none =>
    have hform : EntryForm none _ _ := .settings kind haim
    rwa [hsettings, htarget] at hform
  | some endpoint =>
    have hform : EntryForm none _ _ := .both kind haim (.intro endpoint.path endpoint.parameters)
    rwa [hsettings, htarget] at hform

theorem isSorted_toJson (h : bindings.IsSorted) : bindings.toJson.IsSorted := by
  refine ⟨?_, isSortedMembers_iff.2 fun m hm => ?_⟩
  · rw [List.map_map]
    exact h.events
  · obtain ⟨event, hevent, rfl⟩ := List.mem_map.1 hm
    refine isSortedItems_iff.2 fun item hitem => ?_
    obtain ⟨action, haction, rfl⟩ := List.mem_map.1 hitem
    exact Action.isSorted_declaration (h.actions event hevent action haction)

theorem parse_render_toJson (hsorted : bindings.IsSorted)
    (hspares : ∀ event ∈ bindings.events, ∀ action ∈ event.2, action.SparesTarget)
    (hdepth : bindings.toJson.depth ≤ nestingLimit) (hnumbers : bindings.toJson.ReadsBack) :
    parse (render bindings.toJson) none = .ok bindings := by
  refine parse_eq_ok_iff.2 ⟨_, parse?_render (isSorted_toJson hsorted) hdepth hnumbers, ?_⟩
  rw [List.forall₂_map_left_iff, List.forall₂_same]
  intro event hevent
  refine .intro event.1 ?_
  rw [List.forall₂_map_left_iff, List.forall₂_same]
  exact fun action haction => entryForm_declaration (hspares event hevent action haction)

/-! ### Bindings that were read -/

private theorem sparesTarget_hintsOf {settings : List (String × Json)} :
    ∀ hint ∈ hintsOf settings, hint.1 ≠ "target" :=
  fun _ hmem => bne_iff_ne.1 (List.mem_filter.1 hmem).2

/-- An action has no hint named as the target, whatever entry declares it. -/
theorem EntryForm.sparesTarget {entry : Json} (h : EntryForm selfTarget entry action) : action.SparesTarget := by
  cases h with
  | bare kind => exact fun _ hmem => absurd hmem List.not_mem_nil
  | endpoint kind remote => exact fun _ hmem => absurd hmem List.not_mem_nil
  | settings kind aim => exact sparesTarget_hintsOf
  | both kind aim remote => exact sparesTarget_hintsOf

private theorem EndpointForm.declaration_eq {declared : Json} {endpoint : Endpoint}
    (h : EndpointForm declared endpoint) :
    declared = endpoint.declaration := by
  obtain ⟨path, parameters⟩ := h
  rfl

private theorem isSorted_parameters {endpoint : Endpoint} (h : endpoint.declaration.IsSorted) :
    ∀ parameter ∈ endpoint.parameters, parameter.IsSorted :=
  isSortedItems_iff.1 h.2

/-- The hints among settings that are sorted are sorted. -/
private theorem pairwise_hintsOf {settings : List (String × Json)} (h : (settings.map (·.1)).Pairwise (· < ·)) :
    ((hintsOf settings).map (·.1)).Pairwise (· < ·) :=
  h.sublist (List.filter_sublist.map _)

theorem EntryForm.isSorted {entry : Json} (h : EntryForm selfTarget entry action) (hentry : entry.IsSorted) :
    action.IsSorted := by
  cases h with
  | bare kind => exact ⟨.nil, by simp, by simp⟩
  | endpoint kind remote =>
    obtain rfl := remote.declaration_eq
    exact ⟨.nil, by simp, by simpa using isSorted_parameters hentry.2.1⟩
  | settings kind aim =>
    obtain ⟨-, ⟨hnames, hvalues⟩, -⟩ := hentry
    exact ⟨pairwise_hintsOf hnames, fun hint hmem => isSortedMembers_iff.1 hvalues hint (List.mem_of_mem_filter hmem),
      by simp⟩
  | both kind aim remote =>
    obtain rfl := remote.declaration_eq
    obtain ⟨-, ⟨hnames, hvalues⟩, hdeclared, -⟩ := hentry
    exact ⟨pairwise_hintsOf hnames, fun hint hmem => isSortedMembers_iff.1 hvalues hint (List.mem_of_mem_filter hmem),
      by simpa using isSorted_parameters hdeclared⟩

/-- The declaration of an action that was read is nested no deeper than the entry that declared it. -/
theorem EntryForm.depth_declaration_le {entry : Json} {limit : Nat} (h : EntryForm selfTarget entry action)
    (hentry : entry.depth ≤ limit + 2) : action.declaration.depth ≤ limit + 2 := by
  cases h with
  | bare kind => exact Action.depth_declaration_le (by simp) (by simp)
  | endpoint kind remote =>
    obtain rfl := remote.declaration_eq
    have hparts := depthItems_le_iff.1 (Nat.le_of_succ_le_succ hentry)
    exact Action.depth_declaration_le (by simp) (by simpa using hparts _ (by simp))
  | settings kind aim =>
    have hparts := depthItems_le_iff.1 (Nat.le_of_succ_le_succ hentry)
    have hsettings :=
      depthMembers_le_iff.1 (Nat.le_of_succ_le_succ (hparts _ (List.mem_cons_of_mem _ List.mem_cons_self)))
    exact Action.depth_declaration_le (fun hint hmem => hsettings hint (List.mem_of_mem_filter hmem)) (by simp)
  | both kind aim remote =>
    obtain rfl := remote.declaration_eq
    have hparts := depthItems_le_iff.1 (Nat.le_of_succ_le_succ hentry)
    have hsettings :=
      depthMembers_le_iff.1 (Nat.le_of_succ_le_succ (hparts _ (List.mem_cons_of_mem _ List.mem_cons_self)))
    exact Action.depth_declaration_le (fun hint hmem => hsettings hint (List.mem_of_mem_filter hmem))
      (by simpa using hparts _ (by simp))

/-- Each action that was read comes from an entry, sorted and within what the text allows. -/
private theorem exists_entryForm {text : String} (h : parse text selfTarget = .ok bindings) :
    ∀ event ∈ bindings.events, ∀ action ∈ event.2,
      ∃ entry, EntryForm selfTarget entry action ∧ entry.IsSorted ∧ entry.depth ≤ 123 + 2 := by
  obtain ⟨members, hread, hforms⟩ := parse_eq_ok_iff.1 h
  obtain ⟨⟨-, hsorted⟩, hdepth⟩ := isSorted_of_parse? hread
  have hvalues := depthMembers_le_iff.1 (Nat.le_of_succ_le_succ hdepth)
  intro event hevent action haction
  obtain ⟨member, hmember, hform⟩ := exists_of_mem_right hforms hevent
  obtain ⟨eventType, hentries⟩ := hform
  obtain ⟨entry, hentry, hform⟩ := exists_of_mem_right hentries haction
  refine ⟨entry, hform, isSortedItems_iff.1 (isSortedMembers_iff.1 hsorted _ hmember) entry hentry, ?_⟩
  exact depthItems_le_iff.1 (Nat.le_of_succ_le_succ (hvalues _ hmember)) entry hentry

/-- Bindings that were read can be written so that they are read again. -/
theorem isSorted_of_parse {text : String} (h : parse text selfTarget = .ok bindings) : bindings.IsSorted := by
  refine ⟨pairwise_of_parse h, fun event hevent action haction => ?_⟩
  obtain ⟨entry, hform, hentry, -⟩ := exists_entryForm h event hevent action haction
  exact hform.isSorted hentry

theorem sparesTarget_of_parse {text : String} (h : parse text selfTarget = .ok bindings) :
    ∀ event ∈ bindings.events, ∀ action ∈ event.2, action.SparesTarget := by
  intro event hevent action haction
  obtain ⟨entry, hform, -⟩ := exists_entryForm h event hevent action haction
  exact hform.sparesTarget

theorem depth_toJson_of_parse {text : String} (h : parse text selfTarget = .ok bindings) :
    bindings.toJson.depth ≤ nestingLimit := by
  refine Nat.succ_le_succ (depthMembers_le_iff.2 fun m hm => ?_)
  obtain ⟨event, hevent, rfl⟩ := List.mem_map.1 hm
  refine Nat.succ_le_succ (depthItems_le_iff.2 fun item hitem => ?_)
  obtain ⟨action, haction, rfl⟩ := List.mem_map.1 hitem
  obtain ⟨entry, hform, -, hdepth⟩ := exists_entryForm h event hevent action haction
  exact hform.depth_declaration_le hdepth

/--
Bindings whose hints all have other names than the target are read again from their own text, with every action in its
place, if the text is nested less than 128 deep and every double in it is read as the double it was written for.
Bindings that were read from any text, for any view, have only such hints and are nested no deeper, and are read
again.
-/
theorem survives_rewriting :
    (∀ bindings : Bindings, bindings.IsSorted →
      (∀ event ∈ bindings.events, ∀ action ∈ event.2, action.SparesTarget) → bindings.toJson.depth < 128 →
      bindings.toJson.ReadsBack → parse (render bindings.toJson) none = .ok bindings) ∧
    ∀ (text : String) (selfTarget : Option String) (bindings : Bindings), parse text selfTarget = .ok bindings →
      (∀ event ∈ bindings.events, ∀ action ∈ event.2, action.SparesTarget) ∧
        (bindings.toJson.ReadsBack → parse (render bindings.toJson) none = .ok bindings) := by
  refine ⟨fun bindings hsorted hspares hdepth hnumbers => ?_, fun text selfTarget bindings hread => ?_⟩
  · exact parse_render_toJson hsorted hspares (Nat.le_of_lt_succ hdepth) hnumbers
  · exact ⟨sparesTarget_of_parse hread,
      parse_render_toJson (isSorted_of_parse hread) (sparesTarget_of_parse hread) (depth_toJson_of_parse hread)⟩

/-- A declaration with a hint and an endpoint, and with an action that names no target. -/
def declaredForView : Json :=
  .object [("click", .array [
    .array [.string "append",
      .object [("delay", .number (.double ⟨false, 2 ^ 52, -53, by decide⟩)), ("target", .string "#list")],
      .array [.string "/item", .string "\n"]],
    .array [.string "remove"]])]

/-- What it declares for a view. -/
def boundForView : Bindings :=
  ⟨[("click", [
    { kind := .append, target := some "#list",
      hints := [("delay", .number (.double ⟨false, 2 ^ 52, -53, by decide⟩))],
      endpoint := some ⟨"/item", [.string "\n"]⟩ },
    { kind := .remove, target := some "#view", hints := [], endpoint := none }])]⟩

theorem survives_rewriting_boundForView :
    parse (render declaredForView) (some "#view") = .ok boundForView ∧ boundForView.IsSorted ∧
      boundForView.toJson.depth < 128 ∧
      (∀ event ∈ boundForView.events, ∀ action ∈ event.2, action.SparesTarget) ∧ boundForView.toJson.ReadsBack ∧
      parse (render boundForView.toJson) none = .ok boundForView := by
  have hdeclared : declaredForView.IsSorted := by
    have hnames : ["delay", "target"].Pairwise (· < ·) := by decide
    simpa only [declaredForView, Json.IsSorted, IsSortedItems, IsSortedMembers, List.map_cons, List.map_nil,
      List.pairwise_singleton, and_true, true_and] using hnames
  have hdelay : (Number.double ⟨false, 2 ^ 52, -53, by decide⟩).ReadsBack :=
    readsBack_double (by decide +kernel) (by decide +kernel)
  have hread : parse (render declaredForView) (some "#view") = .ok boundForView := by
    have hnumbers : declaredForView.ReadsBack :=
      ⟨⟨⟨trivial, ⟨hdelay, trivial, trivial⟩, ⟨trivial, trivial, trivial⟩, trivial⟩, ⟨trivial, trivial⟩,
        trivial⟩, trivial⟩
    refine parse_eq_ok_iff.2 ⟨_, parse?_render hdeclared (by decide) hnumbers, .cons (.intro "click" ?_) .nil⟩
    refine .cons ?_ (.cons (.bare .remove) .nil)
    exact .both .append (.text rfl) (.intro "/item" [.string "\n"])
  have hsorted : boundForView.IsSorted := isSorted_of_parse hread
  obtain ⟨hspares, -⟩ := survives_rewriting.2 _ _ _ hread
  have hdepth : boundForView.toJson.depth < 128 := by decide
  have hnumbers : boundForView.toJson.ReadsBack :=
    ⟨⟨⟨trivial, ⟨hdelay, trivial, trivial⟩, ⟨trivial, trivial, trivial⟩, trivial⟩,
      ⟨trivial, ⟨trivial, trivial⟩, trivial⟩, trivial⟩, trivial⟩
  exact ⟨hread, hsorted, hdepth, hspares, hnumbers, survives_rewriting.1 _ hsorted hspares hdepth hnumbers⟩

end Bindings

end PageBindings
