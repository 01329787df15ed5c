import PageBindings.Script.MemorySession
import PageBindings.Proofs.World.Listeners

/-!
# Reachable worlds

A world is reachable if it comes from a page with some markup by steps of scripts and by clients that join, with any
settings and any resolvers (`Script.Reachable`).  Every step is a sequence of changes (`MemoryStep.changes`), so that
reachable worlds are sound (`Reachable.sound`), and what lasts in a world lasts from step to step (`Leads.later`).
-/

namespace PageBindings.Script

open Relation (ReflTransGen)

/-- What comes next in a world: a step, a client that joins, or a report that takes the notices away. -/
inductive Next (world : World MemoryPage) : World MemoryPage → Prop
  | perform (step : MemoryStep) : Next world (step.perform world).1
  | join (settings : Settings) (resolvers : Resolvers MemoryPage) : Next world (world.addClient settings resolvers).1
  | report : Next world { world with notices := [] }

/-- The second world comes some time after the first one. -/
def Leads : World MemoryPage → World MemoryPage → Prop :=
  ReflTransGen Next

/-- The world comes from a page with some markup. -/
def Reachable (world : World MemoryPage) : Prop :=
  ∃ markup, Leads { page := MemoryPage.withBody markup } world

variable {world world' : World MemoryPage} {client : Client MemoryPage}

theorem Reachable.leads (h : Reachable world) (hl : Leads world world') : Reachable world' := by
  obtain ⟨markup, h⟩ := h
  exact ⟨markup, h.trans hl⟩

/-! ### Steps -/

/-- What holds of the world and of all that goes on with an element holds of what goes on with a reference. -/
theorem withNode_of {P : World MemoryPage → Prop} (ref : NodeRef) {go : NodeId → Result MemoryPage} (h : P world)
    (hgo : ∀ node, P (go node).1) : P (withNode world ref go).1 := by
  unfold withNode
  split
  · exact hgo _
  · exact h

theorem withNodes_of {P : World MemoryPage → Prop} (refs : List NodeRef) {go : List NodeId → Result MemoryPage}
    (h : P world) (hgo : ∀ nodes, P (go nodes).1) : P (withNodes world refs go).1 := by
  unfold withNodes
  split
  · exact hgo _
  · exact h

/-! What a step leaves does not depend on whether its answer is a fault. -/

section Leavings

variable {π : Type} [VisiblePage π] (world : World π) (client : Client π)

theorem ClientStep.fst_start : (ClientStep.start.perform world client).1 = (world.start client).1 := by
  simp only [perform]
  split
  · rename_i heq
    rw [heq]
  · rename_i heq
    rw [heq]

theorem ClientStep.fst_bind (ref : NodeRef) : ((ClientStep.bind ref).perform world client).1 =
    (withNode world ref fun node => (world.withScene (client.bind world.toScene node).1, .ok .nothing)).1 := by
  simp only [perform, withNode]
  split
  · split
    · rename_i heq
      rw [heq]
    · rename_i heq
      rw [heq]
  · rfl

theorem ClientStep.fst_patch (kind : PatchKind) (target : String) (fragment : Option String) :
    ((ClientStep.patch kind target fragment).perform world client).1 =
      world.withScene (client.patch world.toScene kind target fragment).1 := by
  simp only [perform]
  split
  · rename_i heq
    rw [heq]
  · rename_i heq
    rw [heq]

theorem ClientStep.fst_swapPushed (html : String) : ((ClientStep.swapPushed html).perform world client).1 =
    world.withScene (client.swapPushed world.toScene html).1 := by
  simp only [perform]
  split
  · rename_i heq
    rw [heq]
  · rename_i heq
    rw [heq]

theorem ClientStep.fst_connect : (ClientStep.connect.perform world client).1 = (world.connect client).1 := by
  simp only [perform]
  split
  · rename_i heq
    rw [heq]
  · rename_i heq
    rw [heq]

theorem PageStep.fst_patch (kind : PatchKind) (target : String) (fragment : Option String) :
    ((PageStep.patch kind target fragment).perform world).1 =
      world.withScene (PageBindings.patch kind target fragment world.toScene).1 := by
  simp only [perform]
  split
  · rename_i heq
    rw [heq]
  · rename_i heq
    rw [heq]

theorem PageStep.fst_patchNodes (kind : PatchKind) (refs : List NodeRef) (fragment : Option String) :
    ((PageStep.patchNodes kind refs fragment).perform world).1 = (withNodes world refs fun nodes =>
      (world.withScene (patchElements kind fragment world.toScene nodes).1, .ok .nothing)).1 := by
  simp only [perform, withNodes]
  split
  · split
    · rename_i heq
      rw [heq]
    · rename_i heq
      rw [heq]
  · rfl

theorem PageStep.fst_resolve (added : List (String × SampleResolver)) (parameters : List Json) :
    ((PageStep.resolve added parameters).perform world).1 = world := by
  simp only [perform]
  split <;> rfl

theorem PageStep.fst_find (selector : String) : ((PageStep.find selector).perform world).1 = world := by
  simp only [perform]
  split <;> rfl

end Leavings

theorem ClientStep.changes (live : world.client? client.ref = some client) (step : ClientStep) :
    ReflTransGen World.Change world (step.perform world client).1 := by
  cases step with
  | start =>
    rw [fst_start]
    exact World.changes_start live
  | scan nodes =>
    refine withNodes_of nodes .refl fun nodes => ?_
    exact World.changes_withScene live (Client.changes_of_binds (client.binds_scan _ nodes))
  | bind node =>
    rw [fst_bind]
    refine withNode_of node .refl fun node => ?_
    exact World.changes_withScene live (Client.changes_of_binds (client.binds_bind _ node))
  | patch kind target fragment =>
    rw [fst_patch]
    exact World.changes_withScene live (client.changes_patch _ kind target fragment)
  | swapPushed html =>
    rw [fst_swapPushed]
    exact World.changes_withScene live (client.changes_swapPushed _ html)
  | connect =>
    rw [fst_connect]
    exact World.changes_connect live
  | close => exact World.changes_close live
  | view node => exact withNode_of node .refl fun node => .refl

/-- The page itself edits its document and nothing else. -/
private theorem changes_of_edited {scene : Scene MemoryPage} (h : world.page.Edited scene.page) :
    ReflTransGen World.Change world (world.withScene scene) := by
  obtain ⟨page, notices⟩ := scene
  obtain ⟨document, handedOut, grows, rfl⟩ := h
  exact .tail (.single (.edit grows.toKeeps handedOut)) (.note notices)

theorem PageStep.changes (hn : world.Numbered) (step : PageStep) :
    ReflTransGen World.Change world (step.perform world).1 := by
  cases step with
  | dispatch node eventType =>
    exact withNode_of node .refl fun node => World.changes_dispatch hn node eventType
  | enter node value =>
    refine withNode_of node .refl fun node => ?_
    exact .single (.edit (Document.grows_setValue _ node (some value)).toKeeps world.page.handedOut)
  | resolve added parameters =>
    rw [fst_resolve]
  | patch kind target fragment =>
    rw [fst_patch]
    exact changes_of_edited (edited_patch kind target fragment world.toScene)
  | patchNodes kind nodes fragment =>
    rw [fst_patchNodes]
    refine withNodes_of nodes .refl fun nodes => ?_
    exact changes_of_edited (edited_patchElements kind fragment world.toScene nodes)
  | insert kind target node =>
    refine withNode_of target .refl fun target => withNode_of node .refl fun node => ?_
    unfold afterChange
    split
    · rename_i page heq
      obtain ⟨document, hput, rfl⟩ := MemoryPage.insertElement_eq_ok heq
      exact .single (.edit (Document.keeps_put? hput) world.page.handedOut)
    · exact .refl
  | create html =>
    simp only [perform]
    split
    · rename_i node page heq
      obtain ⟨-, -, handedOut, rfl⟩ := MemoryPage.create_eq_ok heq
      exact .single (.edit (Document.grows_read _ html).toKeeps handedOut)
    · exact .refl
  | find selector =>
    rw [fst_find]
  | disjoint nodes => exact withNodes_of nodes .refl fun nodes => .refl
  | eventful nodes marker =>
    refine withNodes_of nodes .refl fun nodes => changes_of_edited ?_
    rw [page_declaringElements]
    exact .refl _
  | attributeOf node name => exact withNode_of node .refl fun node => .refl
  | isAttached node => exact withNode_of node .refl fun node => .refl
  | outline node => exact withNode_of node .refl fun node => .refl

theorem MemoryStep.changes (hn : world.Numbered) (step : MemoryStep) :
    ReflTransGen World.Change world (step.perform world).1 := by
  cases step with
  | addClient settings added =>
    simp only [perform]
    split
    · exact .refl
    · exact .single (.join _ _)
  | dropClient ref =>
    simp only [perform]
    split
    · exact .single (.leave ref)
    · exact .refl
  | withClient ref step =>
    simp only [perform]
    split
    · rename_i client hc
      have live : world.client? client.ref = some client := by rwa [hn ref client hc]
      exact step.changes live
    · exact .refl
  | onPage step => exact step.changes hn
  | respond ref outcome =>
    simp only [perform]
    split
    · exact .refl
    · exact .head (.settle _) (World.changes_complete (by exact hn) _ outcome)
  | stream signal =>
    simp only [perform]
    split
    · exact .refl
    · exact World.changes_hear hn _ signal
  | refuse capability off => exact .single (.refuse capability off)

/-! ### Runs -/

theorem Next.changes (h : Next world world') (hn : world.Numbered) : ReflTransGen World.Change world world' := by
  cases h with
  | perform step => exact step.changes hn
  | join settings resolvers => exact .single (.join settings resolvers)
  | report => exact .single (.note [])

theorem Leads.changes (h : Leads world world') (hn : world.Numbered) : ReflTransGen World.Change world world' := by
  induction h with
  | refl => exact .refl
  | tail _ hlast ih => exact ih.trans (hlast.changes (World.numbered_of_changes ih hn))

/-- A page without clients and listeners is sound. -/
theorem sound_withBody (markup : String) : World.Sound { page := MemoryPage.withBody markup } where
  numbered ref client h := by simp [World.client?] at h
  paired node eventType := by simp [MemoryPage.withBody, MemoryPage.listenersOf]
  declared listener h := by simp [MemoryPage.withBody] at h

theorem Reachable.sound (h : Reachable world) : world.Sound := by
  obtain ⟨markup, h⟩ := h
  have hs := sound_withBody markup
  exact World.sound_of_changes (h.changes hs.numbered) hs

theorem Leads.later (h : Leads world world') (hn : world.Numbered) : world.Later world' :=
  World.later_of_changes (h.changes hn)

/-! ### Sessions -/

namespace MemorySession

/-- The session after some steps. -/
def after (session : MemorySession) (steps : List MemoryStep) : MemorySession :=
  steps.foldl (fun session step => (session.step step).1) session

theorem leads_after (session : MemorySession) (steps : List MemoryStep) :
    Leads session.world (session.after steps).world := by
  induction steps generalizing session with
  | nil => exact .refl
  | cons step rest ih =>
    have hone : Leads session.world (session.step step).1.world := .tail (.single (.perform step)) .report
    exact hone.trans (ih (session.step step).1)

theorem forest_begin (markup : String) (settings : Settings) (added : List (String × SampleResolver)) :
    (begin markup settings added).world.page.document.Forest :=
  Document.forest_withBody markup

/-- The worlds of a session are reachable. -/
theorem reachable (markup : String) (settings : Settings) (added : List (String × SampleResolver))
    (steps : List MemoryStep) : Reachable ((begin markup settings added).after steps).world := by
  have hbegin : Leads { page := MemoryPage.withBody markup } (begin markup settings added).world :=
    .single (.join settings (resolversWith added))
  exact ⟨markup, hbegin.trans (leads_after _ steps)⟩

end MemorySession

end PageBindings.Script
