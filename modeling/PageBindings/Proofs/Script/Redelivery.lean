import PageBindings.Proofs.Client.Redelivery
import PageBindings.Proofs.Script.Pushing

/-!
# Fragments that are delivered twice

A push stream may deliver a fragment again.  In a reachable world this does no harm (`redelivery_harmless`): the
second push comes to the same as the first one, whether that has succeeded or failed, and only the numbers of the new
elements tell how often the fragment has come.
-/

namespace PageBindings.Script

/--
Pushing a fragment twice in a row gives the same outcome both times and leaves the document that it leaves when pushed
once, with the same listeners on each element, up to the numbers of what it puts in.
-/
theorem redelivery_harmless {world : World MemoryPage} (h : Reachable world) (forest : world.page.document.Forest)
    (client : Client MemoryPage)
    (viewIdChars : ∀ c ∈ client.settings.vocabulary.viewId.toList, Selector.isNameChar c = true) (html : String) :
    ∃ number, MemoryPage.Renumbered world.page.document.size number (client.swapPushed world.toScene html).1.page
        (client.swapPushed (client.swapPushed world.toScene html).1 html).1.page ∧
      (client.swapPushed (client.swapPushed world.toScene html).1 html).2 =
        (client.swapPushed world.toScene html).2.map (PatchOutcome.renumber number) ∧
      (client.swapPushed (client.swapPushed world.toScene html).1 html).1.page.shape world.page.document.size =
        (client.swapPushed world.toScene html).1.page.shape world.page.document.size := by
  obtain ⟨number, hrenumbered, houtcome⟩ :=
    Client.swapPushed_swapPushed client world.toScene html forest h.seated viewIdChars
  have hf := (Client.grows_of_changes (client.changes_swapPushed world.toScene html)).forest forest
  have hf' :=
    (Client.grows_of_changes (client.changes_swapPushed (client.swapPushed world.toScene html).1 html)).forest hf
  exact ⟨number, hrenumbered, houtcome, hrenumbered.shape_eq hf hf' forest.size_pos⟩

/-- A new state of a view that has the view id once more in it, with bindings. -/
def nestedUpdate : String :=
  "<p silta-view-id='v'><i silta-view-id='v' silta-events='" ++ clickDeclaration ++ "'></i></p>"

/-- The second push puts the new element in for the one that the first has put in, not for one in it or after it. -/
theorem redelivery_harmless_nestedUpdate :
    (plainClient.swapPushed repeatedView.toScene nestedUpdate).2 = .ok { kind := .swap, inserted := [5] } ∧
      (plainClient.swapPushed (plainClient.swapPushed repeatedView.toScene nestedUpdate).1 nestedUpdate).2 =
        .ok { kind := .swap, inserted := [7] } ∧
      (plainClient.swapPushed
        (plainClient.swapPushed repeatedView.toScene nestedUpdate).1 nestedUpdate).1.page.shape 5 =
        (plainClient.swapPushed repeatedView.toScene nestedUpdate).1.page.shape 5 := by
  have hreachable : Reachable repeatedView := MemorySession.reachable _ _ _ []
  have hforest : repeatedView.page.document.Forest := MemorySession.forest_begin _ _ _
  have hchars : plainClient.settings.vocabulary.viewId.toList.all Selector.isNameChar = true := by decide +kernel
  have hsize : repeatedView.page.document.size = 5 := by decide +kernel
  obtain ⟨number, -, -, hshape⟩ :=
    redelivery_harmless hreachable hforest plainClient (List.all_eq_true.1 hchars) nestedUpdate
  rw [hsize] at hshape
  exact ⟨by decide +kernel, by decide +kernel, hshape⟩

end PageBindings.Script
