import PageBindings.Proofs.Client.Commuting
import PageBindings.Proofs.Client.Rebinding
import PageBindings.Proofs.Script.Listeners

/-!
# Patches bind what they put in

In a reachable world a patch of a client binds the elements that it has put in, with all below them, and leaves the
marks and listeners of all other nodes alone (`rebinding_confined`): those of its targets, of elements that nobody has
ever bound, and of what it has taken out of the document.
-/

namespace PageBindings.Script

/--
Whatever comes of a patch, the new elements that it reports are served by the client with all that is below them, and
no other node has other marks or listeners than before.  A patch without new content binds nothing anywhere.
-/
theorem rebinding_confined {world : World MemoryPage} (h : Reachable world) (forest : world.page.document.Forest)
    (client : Client MemoryPage)
    (nameChars : ∀ c ∈ client.settings.vocabulary.events.toList, Selector.isNameChar c = true) (kind : PatchKind)
    (selector : String) (fragment : Option String) :
    client.Rebound world.page (client.patch world.toScene kind selector fragment).1.page
        (Client.made (client.patch world.toScene kind selector fragment).2) ∧
      (kind.creates = false →
        (client.patch world.toScene kind selector fragment).1.page.marks = world.page.marks ∧
        (client.patch world.toScene kind selector fragment).1.page.listeners = world.page.listeners) := by
  refine ⟨Client.rebound_patch forest h.seated nameChars kind selector fragment, fun hk => ?_⟩
  exact Client.patch_of_local forest hk selector fragment

/-- A declaration of one event type. -/
def clickDeclaration : String :=
  "\x7b\"click\":[[\"reset\"]]\x7d"

theorem exists_parse_clickDeclaration :
    ∃ bindings, Bindings.parse clickDeclaration none = .ok bindings ∧ "click" ∈ bindings.events.map Prod.fst := by
  have hkeys : (Bindings.parse clickDeclaration none).toOption.map (·.events.map Prod.fst) = some ["click"] := by
    decide +kernel
  cases hread : Bindings.parse clickDeclaration none with
  | error cause => simp [hread, Except.toOption] at hkeys
  | ok bindings =>
    rw [hread] at hkeys
    have hclick : bindings.events.map Prod.fst = ["click"] := Option.some.inj hkeys
    exact ⟨bindings, rfl, hclick ▸ List.mem_singleton_self "click"⟩

/-- A list that declares bindings and was never bound, with an item in it. -/
def unboundList : World MemoryPage :=
  (MemorySession.begin
    ("<ul class='a' silta-events='" ++ clickDeclaration ++ "'><li class='a'></li></ul>") {} []).world

/-- New content for both, of which one element has a declaration that cannot be read. -/
def eventfulItem : String :=
  "<i silta-events='" ++ clickDeclaration ++ "'><b silta-events='['></b></i>"

/-- The page after this was put in at the end of each. -/
def eventfulList : MemoryPage :=
  (plainClient.patch unboundList.toScene .append ".a" (some eventfulItem)).1.page

theorem rebinding_confined_unboundList :
    Client.made (plainClient.patch unboundList.toScene .append ".a" (some eventfulItem)).2 = [4, 6] ∧
      (∃ listener, eventfulList.listenersOf 6 "click" = [listener] ∧ listener.client = plainClient.ref) ∧
      eventfulList.listenersOf 7 "click" = [] ∧ eventfulList.listenersOf 2 "click" = [] := by
  have hreachable : Reachable unboundList := MemorySession.reachable _ _ _ []
  have hforest : unboundList.page.document.Forest := MemorySession.forest_begin _ _ _
  have hchars : plainClient.settings.vocabulary.events.toList.all Selector.isNameChar = true := by decide +kernel
  have hfacts : Client.made (plainClient.patch unboundList.toScene .append ".a" (some eventfulItem)).2 = [4, 6] ∧
      eventfulList.document.attribute? 6 plainClient.settings.vocabulary.events = some clickDeclaration ∧
      eventfulList.document.attribute? 7 plainClient.settings.vocabulary.events = some "[" ∧
      eventfulList.document.contains 6 7 = true ∧
      ∀ e ∈ [4, 6], eventfulList.document.contains e 2 = false := by decide +kernel
  obtain ⟨hmade, hitem, hinner, hbelow, hbeside⟩ := hfacts
  have hrebound : plainClient.Rebound unboundList.page eventfulList [4, 6] := by
    have h := (rebinding_confined hreachable hforest plainClient (List.all_eq_true.1 hchars) .append ".a"
      (some eventfulItem)).1
    rwa [hmade] at h
  have hallowed : MemoryPage.Capability.listener ∉ unboundList.page.refused := List.not_mem_nil
  have hf : eventfulList.document.Forest := by
    unfold eventfulList
    exact (Client.grows_of_changes (plainClient.changes_patch unboundList.toScene .append ".a" _)).forest hforest
  refine ⟨hmade, ?_, ?_, ?_⟩
  · -- the new item declares one event type
    obtain ⟨bindings, hread, hclick⟩ := exists_parse_clickDeclaration
    have hserves := hrebound.inside hallowed (by decide : 6 ∈ [4, 6]) (Document.Above.refl _ 6)
    obtain ⟨listener, hlistener, hdeclares⟩ := hserves.declared hitem hread hclick
    exact ⟨listener, hlistener, hdeclares.owner⟩
  · -- what is in it has a declaration that cannot be read
    refine (hrebound.inside hallowed (by decide : 6 ∈ [4, 6]) (hf.contains_iff.1 hbelow)).other
      fun text selfTarget bindings htext hread => ?_
    rw [hinner] at htext
    obtain rfl := Option.some.inj htext
    have hjson : Json.parse? "[" = none := by decide +kernel
    simp [Bindings.parse, hjson] at hread
  · -- the list is a target, and not new
    have hout : ∀ e ∈ [4, 6], ¬ eventfulList.document.Above e 2 := by
      intro e he habove
      have hcontains := hbeside e he
      rw [hf.contains_iff.2 habove] at hcontains
      exact Bool.noConfusion hcontains
    exact (hrebound.outside hout "click").2

end PageBindings.Script
