import Iscp.Relay.Effects
import Iscp.Service.Alone

/-!
# The Relay, one request after the other

The rules of `Iscp.Handler.Alone` and `Iscp.Handler.Frame` for the pieces the handlers of the Relay
are made of: blocks under the mutex, and statements.
-/

namespace Iscp

namespace Relay

open Go Crypto Identity Replay Service Provisioning

variable {i : ℕ} {c : Snapshot} {α ω τ : Type}
  {C : Snapshot → Entry Env Event → Prop} {Q : α → Snapshot → Prop} {X : ω → Snapshot → Prop}
  {v : State → τ}

/-- **The rule for a block under the mutex.** -/
theorem alone_mutex {f : Env → State → Except ω (State × α × List Event)}
    (hok : ∀ e s a events, f e c.state = .ok (s, a, events) → Q a ⟨s, c.trace ++ [⟨i, e, events⟩]⟩)
    (herror : ∀ e r, f e c.state = .error r → X r ⟨c.state, c.trace ++ [⟨i, e, []⟩]⟩) :
    (mutex f).Alone C i Q X c :=
  Handler.alone_attempt (fun e s a events _ => hok e s a events) fun e r _ => herror e r

variable {f : Env → Database → Except Error (Database × α × List Event)} {domainID : Str}

/-- **The rule for a statement.** -/
theorem alone_statement {X : Error → Snapshot → Prop}
    (hok : ∀ e db a events, C c ⟨i, e, events⟩ → f e c.state.db = .ok (db, a, events) →
      Q a ⟨{ c.state with db := db }, c.trace ++ [⟨i, e, events⟩]⟩)
    (hdomain : domainID = [] → ∀ r, X r c)
    (herror : ∀ e r, C c ⟨i, e, []⟩ → e.sqlFails = true ∨ f e c.state.db = .error r →
      X r ⟨c.state, c.trace ++ [⟨i, e, []⟩]⟩) : (statement domainID f).Alone C i Q X c := by
  refine .bind (Handler.alone_stopIf (fun h => hdomain h _) fun _ => ?_)
  refine alone_sql (fun e s a events hC _ h => ?_) fun e r hC h => ?_
  · obtain ⟨⟨db, r⟩, hdb, ⟨⟩⟩ := bind_eq_ok_iff.mp h
    exact hok e db a events hC hdb
  · refine herror e r hC (h.imp_right fun h => ?_)
    cases hf : f e c.state.db with
    | ok r =>
      rw [hf] at h
      cases h
    | error err =>
      rw [hf] at h
      exact congrArg _ (Except.error.inj h)

/-- **A statement leaves alone what does not depend on the database.** -/
theorem frames_statement {M : Event → Prop}
    (hf : ∀ e s db a events, f e s.db = .ok (db, a, events) →
      v { s with db := db } = v s ∧ ∀ w ∈ events, M w) : (statement domainID f).Frames v M := by
  refine .bind (Handler.frames_stopIf _ _) fun _ => frames_sql fun e s s' a events h => ?_
  obtain ⟨⟨db, r⟩, hdb, ⟨⟩⟩ := bind_eq_ok_iff.mp h
  exact hf e s db a events hdb

end Relay

end Iscp
