/-
OpenSsp/Lib/Eval.lean

Programs whose calls are answered by a function of the world.

An `Environment` says what each call replies and what the world is afterwards, so a program
has one result (`Prog.eval`, `Act.eval`).

Main results: `Prog.eval_bind` and its counterparts for programs that can fail, and
`Prog.after_eval`.
-/
import OpenSsp.Lib.Prog

namespace Interleave

variable {I : Interface} {W α β ε : Type}

/-- The reply to every call, and the world after it. -/
abbrev Environment (I : Interface) (W : Type) := (c : I.Call) → W → I.Reply c × W

variable {env : Environment I W} {w w' : W}

/-- The program is run against an environment that answers at once and keeps its own state. -/
def Prog.eval (env : Environment I W) : Prog I α → W → α × W
  | ret a, w => (a, w)
  | call c k, w => (k (env c w).1).eval env (env c w).2

/-- The rest of a sequence runs in the state that its first part has left. -/
theorem Prog.eval_bind (p : Prog I α) (f : α → Prog I β) (w : W) :
    (p >>= f).eval env w = (f (p.eval env w).1).eval env (p.eval env w).2 := by
  induction p generalizing w with
  | ret a => rfl
  | call c k ih =>
      show (k (env c w).1 >>= f).eval env (env c w).2 = _
      rw [ih]
      rfl

/-- An environment takes every program to its end. -/
theorem Prog.after_eval (env : Environment I W) (p : Prog I α) (w : W) :
    ∃ h, p.After h (ret (p.eval env w).1) := by
  induction p generalizing w with
  | ret a => exact ⟨[], .start⟩
  | call c k ih =>
      obtain ⟨h, hk⟩ := ih (env c w).1 (env c w).2
      have hcall : (call c k).After [⟨c, (env c w).1⟩] (k (env c w).1) := After.start.reply _
      exact ⟨h ++ [⟨c, (env c w).1⟩], hcall.trans hk⟩

namespace Act

/-- The evaluation of an action, which may end in an error. -/
def eval (env : Environment I W) (x : Act I ε α) (w : W) : Except ε α × W := x.run.eval env w

variable {x : Act I ε α} {f : α → Act I ε β} {a : α} {e : ε}

@[simp] theorem eval_pure : eval env (pure a : Act I ε α) w = (.ok a, w) := rfl

@[simp] theorem eval_throw : eval env (throw e : Act I ε α) w = (.error e, w) := rfl

@[simp] theorem eval_ofExcept (r : Except ε α) :
    eval env (ofExcept r : Act I ε α) w = (r, w) := by
  rcases r with e | a
  · rfl
  · rfl

@[simp] theorem eval_ask (c : I.Call) (conv : I.Reply c → Except ε α) :
    eval env (ask c conv) w = (conv (env c w).1, (env c w).2) := rfl

@[simp] theorem eval_tell (c : I.Call) :
    eval env (tell c : Act I ε (I.Reply c)) w = (.ok (env c w).1, (env c w).2) := rfl

/-- After a result the next action goes on. -/
theorem eval_bind_ok (hx : eval env x w = (.ok a, w')) :
    eval env (x >>= f) w = eval env (f a) w' := by
  apply (Prog.eval_bind x.run (ExceptT.bindCont f) w).trans
  rw [show x.run.eval env w = (.ok a, w') from hx]
  rfl

/-- After an error nothing more is done. -/
theorem eval_bind_error (hx : eval env x w = (.error e, w')) :
    eval env (x >>= f) w = (.error e, w') := by
  apply (Prog.eval_bind x.run (ExceptT.bindCont f) w).trans
  rw [show x.run.eval env w = (.error e, w') from hx]
  rfl

@[simp] theorem eval_attempt :
    eval env (attempt x) w = (.ok (eval env x w).1, (eval env x w).2) :=
  Prog.eval_bind x.run (fun r => Prog.ret (Except.ok (ε := ε) r)) w

end Act

end Interleave
