import PageBindings.Proofs.Script.Reachable
import PageBindings.Proofs.World.Healing

/-!
# Refused listeners heal

A session with one client may go on for a while on a page that refuses listeners: nothing is bound then, but all else
goes as it would otherwise (`MemoryStep.behind`, step by step).  So a scan of the whole document, once listeners are
allowed, leaves every element as it would be had they been allowed from the start (`refused_listeners_heal`).
-/

namespace PageBindings.Script

open MemoryPage (Capability)

variable {world world' : World MemoryPage} {client other : Client MemoryPage} {known : MemoryPage} {ref : ClientRef}

/-! ### Steps -/

/-- Whether a step is one of a client, or brings a response or a signal of a stream. -/
def MemoryStep.isWork : MemoryStep → Bool
  | .withClient .. | .respond .. | .stream .. => true
  | .addClient .. | .dropClient .. | .onPage .. | .refuse .. => false

theorem findNode_congr {page page' : MemoryPage} (h : page.Resembles page') (node : NodeRef) :
    findNode page' node = findNode page node := by
  cases node with
  | number node =>
    show (if page'.handedOut.contains node then _ else _) = _
    rw [h.handedOut]
    rfl
  | selector text =>
    have hquery : @Page.query _ VisiblePage.toPage page' none text =
        @Page.query _ VisiblePage.toPage page none text :=
      h.query none text
    unfold findNode
    dsimp only
    rw [hquery]

private theorem behind_withNode (h : World.Behind client known world world') (node : NodeRef)
    {go go' : NodeId → Result MemoryPage} (hgo : ∀ node, World.Behind client known (go node).1 (go' node).1) :
    World.Behind client known (withNode world node go).1 (withNode world' node go').1 := by
  unfold withNode
  rw [findNode_congr h.page.resembles]
  split
  · exact hgo _
  · exact h

private theorem behind_withNodes (h : World.Behind client known world world') (nodes : List NodeRef)
    {go go' : List NodeId → Result MemoryPage} (hgo : ∀ nodes, World.Behind client known (go nodes).1 (go' nodes).1) :
    World.Behind client known (withNodes world nodes go).1 (withNodes world' nodes go').1 := by
  unfold withNodes
  rw [funext (findNode_congr h.page.resembles)]
  split
  · exact hgo _
  · exact h

theorem ClientStep.behind (h : World.Behind client known world world') (live : world.client? ref = some other)
    (step : ClientStep) : World.Behind client known (step.perform world other).1 (step.perform world' other).1 := by
  cases step with
  | start =>
    rw [fst_start, fst_start]
    exact h.start live
  | scan nodes =>
    exact behind_withNodes h nodes fun nodes => h.binds live (other.binds_scan _ nodes) (other.binds_scan _ nodes)
  | bind node =>
    rw [fst_bind, fst_bind]
    exact behind_withNode h node fun node => h.binds live (other.binds_bind _ node) (other.binds_bind _ node)
  | patch kind target fragment =>
    rw [fst_patch, fst_patch]
    exact h.updates live (other.updates_patch _ kind target fragment) (other.updates_patch _ kind target fragment)
      (Client.resembles_patch h.page.resembles kind target fragment)
  | swapPushed html =>
    rw [fst_swapPushed, fst_swapPushed]
    exact h.updates live (other.updates_swapPushed _ html) (other.updates_swapPushed _ html)
      (Client.resembles_swapPushed h.page.resembles html)
  | connect =>
    rw [fst_connect, fst_connect]
    exact h.connect live
  | close => exact h.close live
  | view node => exact behind_withNode h node fun _ => h

/-- The world that refuses listeners stays behind, step by step. -/
theorem MemoryStep.behind (h : World.Behind client known world world') (step : MemoryStep)
    (work : step.isWork = true) : World.Behind client known (step.perform world).1 (step.perform world').1 := by
  cases step with
  | withClient ref step =>
    simp only [perform]
    rw [h.client?]
    split
    · rename_i other live
      exact step.behind h live
    · exact h
  | respond request outcome =>
    simp only [perform]
    rw [h.page.exchanges]
    split
    · exact h
    · rename_i index errand _
      have hsettled := h.page.withOthers (rfl : Exchange.settle world.page.exchanges index = _) h.page.streams
        world.page.closed world'.page.closed
      exact (h.withPage hsettled world.notices world'.notices).complete errand outcome
  | stream signal =>
    simp only [perform]
    rw [h.page.streams]
    split
    · exact h
    · exact h.hear _ signal
  | addClient => simp [isWork] at work
  | dropClient => simp [isWork] at work
  | onPage => simp [isWork] at work
  | refuse => simp [isWork] at work

/-! ### Sessions -/

namespace MemorySession

variable {session session' : MemorySession} {steps : List MemoryStep}

theorem behind_after (h : World.Behind client known session.world session'.world)
    (work : ∀ step ∈ steps, step.isWork = true) :
    World.Behind client known (session.after steps).world (session'.after steps).world := by
  induction steps generalizing session session' with
  | nil => exact h
  | cons step rest ih =>
    have hone := MemoryStep.behind h step (work step List.mem_cons_self)
    have hnext : World.Behind client known (session.step step).1.world (session'.step step).1.world :=
      hone.withNotices [] []
    exact ih hnext fun other hother => work other (List.mem_cons_of_mem step hother)

/-- The session goes on with listeners refused or allowed. -/
def afterwards (session : MemorySession) (refused : Bool) (steps : List MemoryStep) : MemorySession :=
  session.after (.refuse .listener refused :: steps)

/-- Refusing listeners makes no difference at first. -/
private theorem behind_refuse (live : session.world.client? client.ref = some client)
    (sole : ∀ ref other, session.world.client? ref = some other → ref = client.ref)
    (forest : session.world.page.document.Forest) :
    World.Behind client session.world.page (session.afterwards true []).world
      (session.afterwards false []).world where
  clients := rfl
  live := ⟨client, live⟩
  sole {ref other} hother := by
    obtain rfl := sole ref other hother
    obtain rfl := Option.some.inj (live.symm.trans hother)
    exact ⟨rfl, rfl, rfl⟩
  page := {
    forest
    marks := rfl
    listeners := rfl
    refuses := List.mem_cons_self
    allows := by simp [afterwards, after, step, MemoryStep.perform, MemoryPage.setRefused]
    exists_added := ⟨[], (client.adds_nil session.world.page).of_keeps (Document.Keeps.refl _) rfl rfl rfl rfl⟩
    resembles := by
      refine ⟨rfl, rfl, fun capability hne => ?_⟩
      simp [afterwards, after, step, MemoryStep.perform, MemoryPage.setRefused, hne]
    exchanges := rfl
    streams := rfl }

/-- What comes of refusing listeners for a while. -/
structure Heals (session : MemorySession) (ref : ClientRef) (steps : List MemoryStep) : Prop where
  /-- As long as listeners are refused nothing is bound. -/
  refused {done : List MemoryStep} (hdone : done <+: steps) :
    Client.BindsNothing session.world.page (session.afterwards true done).world.toScene
  /-- Once they are allowed a scan of the document leaves all elements as if they had always been. -/
  healed : ∃ client, (session.afterwards true steps).world.client? ref = some client ∧
    (session.afterwards false steps).world.client? ref = some client ∧
    Client.SameBindings (client.healed (session.afterwards true steps).world.page)
      (client.healed (session.afterwards false steps).world.page)

end MemorySession

theorem refused_listeners_heal {session : MemorySession} (h : Reachable session.world)
    (live : session.world.client? ref = some client)
    (sole : ∀ otherRef other, session.world.client? otherRef = some other → otherRef = ref)
    (forest : session.world.page.document.Forest)
    (nameChars : ∀ c ∈ client.settings.vocabulary.events.toList, Selector.isNameChar c = true)
    {steps : List MemoryStep} (work : ∀ step ∈ steps, step.isWork = true) : session.Heals ref steps := by
  obtain rfl := h.sound.numbered ref client live
  have hstart := MemorySession.behind_refuse live sole forest
  refine ⟨fun {done} hdone => ?_, ?_⟩
  · have hbehind := MemorySession.behind_after hstart fun step hstep => work step (hdone.subset hstep)
    exact hbehind.page.bindsNothing
  · have hbehind := MemorySession.behind_after hstart work
    obtain ⟨other, hother⟩ := hbehind.live
    obtain ⟨-, -, hsettings⟩ := hbehind.sole hother
    refine ⟨other, hother, (hbehind.client? _).trans hother, ?_⟩
    exact ((hbehind.congr hother).2 hbehind.page).heals (hsettings ▸ nameChars)

/-- A paragraph that goes away on a click. -/
def fading : MemorySession :=
  .begin "<p silta-events='\x7b\"click\":[[\"remove\"]]\x7d'></p>" {} []

/-- The paragraph is bound, and a quotation put in after it. -/
def fadingSteps : List MemoryStep :=
  [.withClient 0 .start,
    .withClient 0 (.patch .append "body" (some "<q silta-events='\x7b\"focus\":[[\"remove\"]]\x7d'></q>"))]

theorem refused_listeners_heal_fading :
    (fading.afterwards true fadingSteps).world.page.marks = [] ∧
      ∃ client, (fading.afterwards true fadingSteps).world.client? 0 = some client ∧
        (3, "focus") ∈ (client.healed (fading.afterwards true fadingSteps).world.page).marks := by
  have hreachable : Reachable fading.world := MemorySession.reachable _ _ _ []
  have hlive : fading.world.client? 0 = some ⟨0, {}, "client-" ++ toString 0, resolversWith [], .idle⟩ := rfl
  have hsole : ∀ ref other, fading.world.client? ref = some other → ref = 0 := fun ref other hother =>
    Nat.lt_one_iff.1 (World.lt_length_of_client? hother)
  have hforest : fading.world.page.document.Forest := MemorySession.forest_begin _ _ _
  have hchars : "silta-events".toList.all Selector.isNameChar = true := by decide +kernel
  have hwork : fadingSteps.all MemoryStep.isWork = true := by decide
  have hheals := refused_listeners_heal hreachable hlive hsole hforest (List.all_eq_true.1 hchars)
    (List.all_eq_true.1 hwork)
  obtain ⟨client, hclient, -, hsame⟩ := hheals.healed
  refine ⟨(hheals.refused List.prefix_rfl).marks, client, hclient, ?_⟩
  have hmark : (3, "focus") ∈ (fading.afterwards false fadingSteps).world.page.marks := by decide +kernel
  have hconnected : Page.isConnected (fading.afterwards true fadingSteps).world.page 3 = true := by decide +kernel
  have hattached : Page.isConnected (client.healed (fading.afterwards true fadingSteps).world.page) 3 = true :=
    (congrArg (Document.isAttached · 3) (Client.document_of_binds (client.binds_healed _))).trans hconnected
  exact (hsame.marks (by decide) hattached "focus").1 (Client.marks_subset_of_binds (client.binds_healed _) hmark)

end PageBindings.Script
