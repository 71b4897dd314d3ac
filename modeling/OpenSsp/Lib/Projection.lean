/-
OpenSsp/Lib/Projection.lean

A machine with more in its world than another one, seen as that other one.

A `Projection` forgets a part of the world.  What answers a call in the detailed machine is one of
the answers of the other, and the outside either does something that the other knows too, or
changes only what is forgotten.  So every run is, with less in its worlds, a run of the other
machine, with the same programs and the same trace.

Main results: `Projection.later` and `Projection.reach`.
-/
import OpenSsp.Lib.Machine

namespace Interleave

variable {I : Interface} {M N : Machine I}

/-- What `M` does is what `N` does, as far as `world` shows. -/
structure Projection (M N : Machine I) where
  world : M.World → N.World
  request : M.Request → N.Request
  init : world M.init = N.init
  handler : ∀ r, N.handler (request r) = M.handler r
  perform : ∀ {t c ch w r w'}, M.perform t c ch w = some (r, w') →
    ∃ ch', N.perform t c ch' (world w) = some (r, world w')
  outside : ∀ {o w w'}, M.outside o w = some w' →
    world w' = world w ∨ ∃ o', N.outside o' (world w) = some (world w')
  cancel : ∀ t w, world (M.cancel t w) = N.cancel t (world w)
  crash : ∀ w, world (M.crash w) = N.crash (world w)

namespace Projection

variable (f : Projection M N)

/-- The same programs and the same trace over the projected world. -/
def config (s : Config M) : Config N := ⟨f.world s.world, s.threads, s.trace⟩

@[simp] theorem config_trace (s : Config M) : (f.config s).trace = s.trace := rfl

@[simp] theorem config_thread (s : Config M) (t : Nat) : (f.config s).thread t = s.thread t := rfl

theorem config_start : f.config (Config.start M) = Config.start N := by
  show (⟨f.world M.init, [], []⟩ : Config N) = ⟨N.init, [], []⟩
  rw [f.init]

/-- A move is a move of the other machine, or one that it does not see. -/
theorem step {s s' : Config M} {m : Move M} (h : s.step m = some s') :
    f.config s' = f.config s ∨ ∃ m', (f.config s).step m' = some (f.config s') := by
  rcases Config.step_cases h with ⟨r, -, rfl⟩ | ⟨t, ch, c, k, hist, r, w, -, hth, hp, rfl⟩ |
    ⟨t, th, -, hth, rfl⟩ | ⟨-, rfl⟩ | ⟨o, w, -, ho, rfl⟩
  · refine .inr ⟨.spawn (f.request r), ?_⟩
    show some ((f.config s).spawn (N.handler (f.request r))) = _
    rw [f.handler]
    rfl
  · obtain ⟨ch', hp'⟩ := f.perform hp
    exact .inr ⟨.run t ch', Config.step_run (s := f.config s) hth hp'⟩
  · refine .inr ⟨.cancel t, ?_⟩
    show ((f.config s).thread t).map _ = _
    rw [config_thread, hth, Option.map_some]
    show some (⟨N.cancel t (f.world s.world), _, _⟩ : Config N) = some ⟨f.world _, _, _⟩
    rw [← f.cancel]
    rfl
  · refine .inr ⟨.crash, ?_⟩
    show some (⟨N.crash (f.world s.world), _, _⟩ : Config N) = some ⟨f.world _, _, _⟩
    rw [← f.crash]
    rfl
  · rcases f.outside ho with hsame | ⟨o', ho'⟩
    · left
      show (⟨f.world w, s.threads, s.trace⟩ : Config N) = ⟨f.world s.world, s.threads, s.trace⟩
      rw [hsame]
    · refine .inr ⟨.outside o', ?_⟩
      show (N.outside o' (f.world s.world)).map _ = _
      rw [ho']
      rfl

/-- What comes later comes later for the other machine. -/
theorem later {s s' : Config M} (h : Later anyMove s s') :
    Later anyMove (f.config s) (f.config s') := by
  induction h with
  | refl => exact .refl
  | step _ _ hstep ih =>
      rcases f.step hstep with hsame | ⟨m', hstep'⟩
      · rw [hsame]
        exact ih
      · exact ih.step trivial hstep'

theorem reach {s : Config M} (h : Reach anyMove s) : Reach anyMove (f.config s) := by
  induction h with
  | start =>
      rw [config_start]
      exact .start
  | step _ _ hstep ih =>
      rcases f.step hstep with hsame | ⟨m', hstep'⟩
      · rw [hsame]
        exact ih
      · exact ih.step trivial hstep'

end Projection

end Interleave
