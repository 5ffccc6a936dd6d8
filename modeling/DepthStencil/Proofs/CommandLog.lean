import DepthStencil.Proofs.Origins

/-! # The commands carried out on an image

The *log* of an image lists the commands in normal form that a run carries out on it, the oldest
first (`Tracker.commands`).  Commands that are turned down or touch nothing leave no trace, and
bringing the image to rest counts as the transition it is. -/

namespace DepthStencil

namespace Tracker

/-- The commands that some actions carry out on an image. -/
def log (id : ImageId) : Tracker → List Action → List Command
  | _, [] => []
  | t, α :: αs =>
    ((t.image? id).bind fun image =>
      (α.accepted? t.policy id image).map Accepted.command).toList ++ log id (t.act α).2 αs

/-- The commands that some calls carry out on an image. -/
def commands (t : Tracker) (id : ImageId) : List Call → List Command
  | [] => []
  | call :: calls => log id t (t.actions call) ++ (t.step call).2.commands id calls

variable {t : Tracker} {id : ImageId}

theorem log_cons_of_beliefs {image : TrackedImage} (h : t.beliefs id = some image) (α : Action)
    (αs : List Action) : log id t (α :: αs) =
      ((α.accepted? t.policy id image).map Accepted.command).toList ++ log id (t.act α).2 αs := by
  obtain ⟨image', hi, rfl⟩ := exists_image?_of_beliefs h
  rw [log, hi]
  rfl

theorem log_singleton_of_beliefs {image : TrackedImage} (h : t.beliefs id = some image)
    (α : Action) :
    log id t [α] = ((α.accepted? t.policy id image).map Accepted.command).toList := by
  rw [log_cons_of_beliefs h, log, List.append_nil]

/-- Every command of a log was accepted from one of the actions. -/
theorem accepted?_of_mem_log {command : Command} : ∀ {αs : List Action} {t : Tracker},
    command ∈ log id t αs → ∃ α ∈ αs, ∃ policy image x,
      α.accepted? policy id image = some x ∧ x.command = command
  | [], _, h => absurd h List.not_mem_nil
  | α :: αs, t, h => by
      rw [log, List.mem_append, Option.mem_toList, Option.bind_eq_some_iff] at h
      rcases h with ⟨image, -, h⟩ | h
      · obtain ⟨x, hx, hc⟩ := Option.map_eq_some_iff.mp h
        exact ⟨α, List.mem_cons_self, t.policy, image, x, hx, hc⟩
      · obtain ⟨α', hα', h'⟩ := accepted?_of_mem_log h
        exact ⟨α', List.mem_cons_of_mem α hα', h'⟩

theorem log_singleton_of_not_tracked (h : t.beliefs id = none) (α : Action) :
    log id t [α] = [] := by
  rw [log, beliefs_eq_none.mp h]
  rfl

theorem commands_singleton (t : Tracker) (id : ImageId) (call : Call) :
    t.commands id [call] = log id t (t.actions call) := by
  rw [commands, commands, List.append_nil]

end Tracker

end DepthStencil
