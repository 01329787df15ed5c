import PageBindings.Binding.Target
import PageBindings.Proofs.Binding.Grammar

/-!
# Where the target of an action comes from

The selector of a view is the target of the actions that name none.  It is filled in twice: when the declaration is
read and again when the action runs.  Neither makes the other one wrong (`Bindings.targets_agree`): a declaration that
is read without the view says the same in all but the targets, and when its actions run they aim where those do that
were read with the view.
-/

namespace PageBindings.Bindings

/-- The target that an entry names; null counts as none. -/
def namedTarget? : Json → Option String
  | .array (_ :: .object settings :: _) =>
    match Json.member? "target" settings with
    | some (.string target) => some target
    | _ => none
  | _ => none

variable {entry : Json} {action : Action} {selfTarget : Option String} {view : Option View} {names : Vocabulary}
  {eventType text : String} {bindings : Bindings}

private theorem TargetForm.eq_named {settings : List (String × Json)} {target : Option String}
    (h : TargetForm settings target) (kind : Json) (rest : List Json) :
    namedTarget? (.array (kind :: .object settings :: rest)) = target := by
  unfold namedTarget?
  dsimp only
  cases h with
  | absent hnone => rw [hnone]
  | null hnull => rw [hnull]
  | text htext => rw [htext]

/-- An action aims where its entry says, or else where it is told to. -/
theorem EntryForm.target_eq (h : EntryForm selfTarget entry action) :
    action.target = (namedTarget? entry).or selfTarget := by
  cases h with
  | bare kind => rfl
  | endpoint kind remote =>
    obtain ⟨path, parameters⟩ := remote
    rfl
  | settings kind aim => rw [aim.eq_named]
  | both kind aim remote => rw [aim.eq_named]

/-- Two readings of one entry say the same and aim at the same, which is what the entry and the view give. -/
structure AimAlike (names : Vocabulary) (view : Option View) (entry : Json) (aimed plain : Action) : Prop where
  kind : aimed.kind = plain.kind
  hints : aimed.hints = plain.hints
  endpoint : aimed.endpoint = plain.endpoint
  target : targetSelector names aimed.target view = targetSelector names plain.target view
  named {target : String} (h : namedTarget? entry = some target) : targetSelector names plain.target view = .ok target
  ofView {given : View} (h : namedTarget? entry = none) (hview : view = some given) :
    targetSelector names plain.target view = .ok (given.selector names)
  missing : targetSelector names plain.target view = .error .missingTarget ↔ namedTarget? entry = none ∧ view = none

theorem EntryForm.aimAlike (h : EntryForm none entry action) (names : Vocabulary) (view : Option View) :
    AimAlike names view entry (action.aim (view.map (View.selector names))) action := by
  have htarget : action.target = namedTarget? entry := h.target_eq.trans Option.or_none
  refine ⟨rfl, rfl, rfl, ?_, fun {target} hnamed => ?_, fun {given} hnone hview => ?_, ?_⟩
  · -- what reading has filled in is what running would
    unfold Action.aim
    dsimp only
    cases action.target with
    | none =>
      cases view with
      | none => rfl
      | some given => rfl
    | some target => rfl
  · rw [htarget, hnamed]
    rfl
  · rw [htarget, hnone, hview]
    rfl
  · rw [htarget]
    exact targetSelector_eq_error_iff names _ view

/-- Two readings of one object have the same event types, with actions that aim alike, one for each entry. -/
structure ReadAlike (names : Vocabulary) (view : Option View) (members : List (String × Json))
    (aimed plain : Bindings) : Prop where
  types : aimed.events.map Prod.fst = members.map Prod.fst ∧ plain.events.map Prod.fst = members.map Prod.fst
  actions {member : String × Json} (h : member ∈ members) : ∃ entries actions actions',
    member.2 = .array entries ∧ aimed.actions? member.1 = some actions ∧ plain.actions? member.1 = some actions' ∧
      actions.length = entries.length ∧ actions'.length = entries.length ∧
      ∀ (i : Nat) (entry : Json), entries[i]? = some entry → ∃ action action',
        actions[i]? = some action ∧ actions'[i]? = some action' ∧ AimAlike names view entry action action'

theorem actions?_aim (selfTarget : Option String) (bindings : Bindings) (eventType : String) :
    (aim selfTarget bindings).actions? eventType =
      (bindings.actions? eventType).map (List.map (Action.aim selfTarget)) := by
  unfold actions? aim
  dsimp only
  rw [List.find?_map, Option.map_map, Option.map_map]
  rfl

private theorem types_of_forms {members : List (String × Json)} {events : List (String × List Action)}
    (h : List.Forall₂ (EventForm selfTarget) members events) : events.map Prod.fst = members.map Prod.fst := by
  induction h with
  | nil => rfl
  | cons hform _ ih =>
    obtain ⟨eventType, -⟩ := hform
    rw [List.map_cons, List.map_cons, ih]

/-- What was read without a view agrees with what is read for one. -/
private theorem readAlike_aim {members : List (String × Json)} (hread : parse text none = .ok bindings)
    (hforms : List.Forall₂ (EventForm none) members bindings.events) (names : Vocabulary) (view : Option View) :
    ReadAlike names view members (aim (view.map (View.selector names)) bindings) bindings where
  types := by
    refine ⟨?_, types_of_forms hforms⟩
    rw [← types_of_forms hforms, aim, List.map_map]
    rfl
  actions {member} hmember := by
    obtain ⟨event, hevent, hform⟩ := exists_of_mem_left hforms hmember
    obtain @⟨eventType, entries, plain, hentries⟩ := hform
    have hactions := actions?_of_mem hread hevent
    refine ⟨entries, plain.map (Action.aim (view.map (View.selector names))), plain, rfl, ?_, hactions, ?_,
      hentries.length_eq.symm, fun i entry hentry => ?_⟩
    · rw [actions?_aim, hactions]
      rfl
    · rw [List.length_map, hentries.length_eq]
    · obtain ⟨hi, rfl⟩ := List.getElem?_eq_some_iff.1 hentry
      have hi' := hentries.length_eq ▸ hi
      refine ⟨_, _, ?_, List.getElem?_eq_getElem hi', (hentries.get hi hi').aimAlike names view⟩
      rw [List.getElem?_map, List.getElem?_eq_getElem hi']
      rfl

/--
Reading a declaration for a view and reading it for none fail alike, or give the same event types with actions that
differ at most in what they have for a target; and even so they aim at the same when they run: where their entry says,
else at the view, and without both of these at nothing.
-/
theorem targets_agree (text : String) (names : Vocabulary) (view : Option View) :
    (∃ cause, parse text (view.map (View.selector names)) = .error cause ∧ parse text none = .error cause) ∨
    ∃ members aimed plain, Json.parse? text = some (.object members) ∧
      parse text (view.map (View.selector names)) = .ok aimed ∧ parse text none = .ok plain ∧
      ReadAlike names view members aimed plain := by
  have haim := parse_eq_map_aim text (view.map (View.selector names))
  cases hplain : parse text none with
  | error cause =>
    left
    rw [hplain] at haim
    exact ⟨cause, haim, rfl⟩
  | ok plain =>
    right
    rw [hplain] at haim
    obtain ⟨members, hobject, hforms⟩ := parse_eq_ok_iff.1 hplain
    exact ⟨members, _, plain, hobject, haim, rfl, readAlike_aim hplain hforms names view⟩

end PageBindings.Bindings
