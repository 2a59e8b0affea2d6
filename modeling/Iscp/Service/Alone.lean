import Iscp.Handler.Alone
import Iscp.Service

/-!
# What the services share, one request after the other

The rules of `Iscp.Handler.Alone` for the pieces both services are made of. The check of a
proof and the drawing of a UUID change nothing but the nonces that have been used, so whatever
does not depend on these (`Iscp.Service.NonceFrame`) is after them as it was before.
-/

namespace Iscp

namespace Service

open Go Crypto Identity Replay

open Handler (alone_attempt alone_done alone_look alone_ofExcept alone_stopIf frames_attempt
  frames_done frames_look frames_ofExcept frames_stopIf runs_attempt)

variable {σ η τ ω : Type}

/-- **Nothing of this depends on the nonces** that have been used, nor on the entries such a use
leaves on record. -/
structure NonceFrame (N : NonceStore σ) (used : DeviceProof → Duration → Time → Bool → η)
    (v : Config σ Env η → τ) : Prop where
  idle : ∀ c i e, v ⟨c.state, c.trace ++ [⟨i, e, []⟩]⟩ = v c
  cache : ∀ c i e cache proof ttl now isNew,
    v ⟨N.setCache c.state cache, c.trace ++ [⟨i, e, [used proof ttl now isNew]⟩]⟩ = v c
  delete : ∀ c i e table, v ⟨N.setTable c.state table, c.trace ++ [⟨i, e, []⟩]⟩ = v c
  insert : ∀ c i e table proof ttl now isNew,
    v ⟨N.setTable c.state table, c.trace ++ [⟨i, e, [used proof ttl now isNew]⟩]⟩ = v c
  refuse : ∀ c i e proof ttl now isNew,
    v ⟨c.state, c.trace ++ [⟨i, e, [used proof ttl now isNew]⟩]⟩ = v c

variable {P : Primitives} {N : NonceStore σ} {repo : Bool}
  {used : DeviceProof → Duration → Time → Bool → η} {v : Config σ Env η → τ}
  {C : Config σ Env η → Entry Env η → Prop} {i : ℕ} {c : Config σ Env η}

theorem alone_clock {Q : Time → Config σ Env η → Prop} {X : ω → Config σ Env η → Prop}
    (h : ∀ e, C c ⟨i, e, []⟩ → Q e.now.utc ⟨c.state, c.trace ++ [⟨i, e, []⟩]⟩) :
    (clock : Handler σ Env η ω Time).Alone C i Q X c := alone_look h

variable {X : Error → Config σ Env η → Prop} {α : Type}

/-- **The rule for a statement.** -/
theorem alone_sql {f : Env → σ → Except Error (σ × α × List η)} {Q : α → Config σ Env η → Prop}
    (hok : ∀ e s' a events, C c ⟨i, e, events⟩ → e.sqlFails = false →
      f e c.state = .ok (s', a, events) → Q a ⟨s', c.trace ++ [⟨i, e, events⟩]⟩)
    (herror : ∀ e r, C c ⟨i, e, []⟩ → e.sqlFails = true ∨ f e c.state = .error r →
      X r ⟨c.state, c.trace ++ [⟨i, e, []⟩]⟩) : (sql f).Alone C i Q X c := by
  refine alone_attempt (fun e s' a events hC h => ?_) fun e r hC h => ?_
  · split_ifs at h with hfails
    exact hok e s' a events hC (Bool.eq_false_of_not_eq_true hfails) h
  · split_ifs at h with hfails
    · exact herror e r hC (.inl hfails)
    · exact herror e r hC (.inr h)

/-- **The check of a proof** leaves everything else as it is. -/
theorem verifyProof_alone (hv : NonceFrame N used v) {id : DeviceIdentity} {proof : DeviceProof}
    {audience challenge : Str} {ttl : Duration} {Q : Unit → Config σ Env η → Prop}
    (hQ : ∀ c', v c' = v c → Q () c') (hX : ∀ r c', v c' = v c → X r c') :
    (verifyProof P N repo used id proof audience challenge ttl).Alone C i Q X c := by
  refine .bind (alone_stopIf (fun _ => hX _ _ rfl) fun _ => ?_)
  refine .bind (alone_clock fun e _ => ?_)
  have hidle := hv.idle c i e
  refine .bind (alone_ofExcept (fun _ _ => ?_) fun _ _ => hX _ _ hidle)
  -- whatever the store has said, nothing more is changed
  have hlast : ∀ (isNew : Bool) c', v c' = v c →
      (Handler.stopIf (isNew = false) (.new .replayDetected (lit "proof nonce replay detected")) :
        Handler σ Env η Error Unit).Alone C i Q X c' := fun isNew c' hc' =>
    alone_stopIf (fun _ => hX _ _ hc') fun _ => hQ _ hc'
  cases repo with
  | false =>
    refine .bind (alone_attempt (fun e' s' isNew events _ h => ?_) nofun)
    cases h
    exact hlast _ _ ((hv.cache ..).trans hidle)
  | true =>
    refine .bind (.bind (alone_stopIf (fun _ => hX _ _ hidle) fun _ => ?_))
    refine .bind (alone_stopIf (fun _ => hX _ _ hidle) fun _ => ?_)
    refine .bind (alone_sql (fun e' s' u events _ _ h => ?_) fun e' r _ _ =>
      hX _ _ ((hv.idle ..).trans hidle))
    cases h
    have hdelete := fun table =>
      (hv.delete ⟨c.state, c.trace ++ [⟨i, e, []⟩]⟩ i e' table).trans hidle
    refine alone_sql (fun e'' s' isNew events _ _ h => ?_) fun e'' r _ _ =>
      hX _ _ ((hv.idle ..).trans (hdelete _))
    split at h
    · cases h
      exact hlast _ _ ((hv.insert ..).trans (hdelete _))
    · cases h
      exact hlast _ _ ((hv.refuse ..).trans (hdelete _))

section Frames

variable {v : σ → τ} {M : η → Prop}

theorem frames_clock : (clock : Handler σ Env η ω Time).Frames v M := frames_look _

theorem frames_sql {f : Env → σ → Except Error (σ × α × List η)}
    (hf : ∀ e s s' a events, f e s = .ok (s', a, events) → v s' = v s ∧ ∀ w ∈ events, M w) :
    (sql f).Frames v M := by
  refine frames_attempt fun e s s' a events h => ?_
  split_ifs at h
  exact hf e s s' a events h

theorem frames_newUUID (now : Time) : (newUUID now : Handler σ Env η Error Str).Frames v M :=
  .bind (frames_look _) fun _ => .bind (frames_ofExcept _) fun _ =>
    frames_done _

/-- **The check of a proof** leaves alone what does not depend on the nonces. -/
theorem verifyProof_frames (hcache : ∀ s cache, v (N.setCache s cache) = v s)
    (htable : ∀ s table, v (N.setTable s table) = v s)
    (hused : ∀ proof ttl now isNew, M (used proof ttl now isNew)) (id : DeviceIdentity)
    (proof : DeviceProof) (audience challenge : Str) (ttl : Duration) :
    (verifyProof P N repo used id proof audience challenge ttl).Frames v M := by
  have hone : ∀ now isNew, ∀ w ∈ [used proof ttl now isNew], M w := by
    intro now isNew w hw
    rw [List.mem_singleton.mp hw]
    exact hused ..
  refine .bind (frames_stopIf _ _) fun _ => .bind frames_clock fun now =>
    .bind (frames_ofExcept _) fun _ => ?_
  cases repo with
  | false =>
    refine .bind (frames_attempt ?_) fun _ => frames_stopIf _ _
    rintro e s s' isNew events ⟨⟩
    exact ⟨hcache .., hone _ _⟩
  | true =>
    refine .bind (.bind (frames_stopIf _ _) fun _ => .bind (frames_stopIf _ _)
      fun _ => .bind (frames_sql ?_) fun _ => frames_sql ?_) fun _ => frames_stopIf _ _
    · rintro e s s' u events ⟨⟩
      exact ⟨htable .., nofun⟩
    · intro e s s' isNew events h
      split at h
      · cases h
        exact ⟨htable .., hone _ _⟩
      · cases h
        exact ⟨rfl, hone _ _⟩

end Frames

theorem newUUID_alone (hidle : ∀ c i e, v ⟨c.state, c.trace ++ [⟨i, e, []⟩]⟩ = v c) {now : Time}
    {Q : Str → Config σ Env η → Prop} (hQ : ∀ id c', v c' = v c → Q id c')
    (hX : ∀ r c', v c' = v c → X r c') :
    (newUUID now : Handler σ Env η Error Str).Alone C i Q X c := by
  refine .bind (alone_look fun e _ => ?_)
  refine .bind (alone_ofExcept (fun id _ => ?_) fun r _ => hX _ _ (hidle c i e))
  exact alone_done (hQ _ _ (hidle c i e))

theorem runs_sql {f : Env → σ → Except Error (σ × α × List η)} (e : Env) (hsql : e.sqlFails = false)
    {s : σ} {a : α} {events : List η} (h : f e c.state = .ok (s, a, events))
    (hC : C c ⟨i, e, events⟩) : (sql f).Runs C i c (.done a) ⟨s, c.trace ++ [⟨i, e, events⟩]⟩ := by
  refine runs_attempt e rfl ?_ hC
  rw [hsql, if_neg Bool.false_ne_true, h]

end Service

end Iscp
