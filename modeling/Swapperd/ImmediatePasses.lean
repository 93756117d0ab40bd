/-
  Swapperd/ImmediatePasses.lean
  =============================
  **What one pass of the immediate swapper does.**

  `handleSwap_cases` says once how a pass can end, `pass_exits` what it does to
  `swapMap` and which messages it emits; every other property of a pass is read off
  its exits.
-/
import Swapperd.ImmediateSwapper

namespace Swapperd.Immediate

open CallProgram RetryTask TransitionRuns GoLibrary

variable {σ N : Type} {step : Behaviour Op Reply σ N} {H : Hashes}

/-! ### The exits are all the exits -/

theorem initiate_exits {swapMap : SwapMap} {req : SwapRequest} {w w' : σ}
    {events : List (Event Op Reply σ N)} {out : SwapMap × List Message}
    (h : Exec step (initiate H swapMap req req.native req.foreign) w events out w') :
    ∃ status err remove, InitiateExit H req (events.map Event.call) status err remove ∧
      out = handleResult swapMap req status err remove := by
  unfold initiate at h
  obtain ⟨_, r, _, _, rfl, -, h⟩ := exec_perform_bind_iff.mp h
  cases r with
  | error err =>
      obtain ⟨rfl, rfl, rfl⟩ := exec_pure_iff.mp h
      exact ⟨_, _, _, .initiateFailed err, rfl⟩
  | ok u =>
      obtain ⟨_, r, _, _, rfl, -, h⟩ := exec_perform_bind_iff.mp h
      cases r with
      | error err =>
          by_cases hpending : err = .auditPending
          · subst hpending
            obtain ⟨rfl, rfl, rfl⟩ := exec_pure_iff.mp h
            exact ⟨_, _, _, .auditPending, rfl⟩
          by_cases hexpired : err = .swapExpired
          · subst hexpired
            obtain ⟨_, r, _, _, rfl, -, h⟩ := exec_perform_bind_iff.mp h
            cases r with
            | error err =>
                obtain ⟨rfl, rfl, rfl⟩ := exec_pure_iff.mp h
                exact ⟨_, _, _, .refundFailed err, rfl⟩
            | ok u =>
                obtain ⟨rfl, rfl, rfl⟩ := exec_pure_iff.mp h
                exact ⟨_, _, _, .refunded, rfl⟩
          · simp only [hpending, hexpired, ↓reduceIte, ne_eq, not_false_eq_true] at h
            obtain ⟨rfl, rfl, rfl⟩ := exec_pure_iff.mp h
            exact ⟨_, _, _, .auditFailed err hpending hexpired, rfl⟩
      | ok u =>
          obtain ⟨_, r, _, _, rfl, -, h⟩ := exec_perform_bind_iff.mp h
          cases r with
          | error err =>
              obtain ⟨rfl, rfl, rfl⟩ := exec_pure_iff.mp h
              exact ⟨_, _, _, .redeemFailed err, rfl⟩
          | ok u =>
              obtain ⟨rfl, rfl, rfl⟩ := exec_pure_iff.mp h
              exact ⟨_, _, _, .redeemed, rfl⟩

theorem respond_exits {swapMap : SwapMap} {req : SwapRequest} {w w' : σ}
    {events : List (Event Op Reply σ N)} {out : SwapMap × List Message}
    (h : Exec step (respond swapMap req req.native req.foreign) w events out w') :
    ∃ status err remove, RespondExit req (events.map Event.call) status err remove ∧
      out = handleResult swapMap req status err remove := by
  unfold respond at h
  obtain ⟨_, r, _, _, rfl, -, h⟩ := exec_perform_bind_iff.mp h
  cases r with
  | error err =>
      by_cases hpending : err = .auditPending
      · subst hpending
        obtain ⟨rfl, rfl, rfl⟩ := exec_pure_iff.mp h
        exact ⟨_, _, _, .auditPending, rfl⟩
      by_cases hexpired : err = .swapExpired
      · subst hexpired
        obtain ⟨rfl, rfl, rfl⟩ := exec_pure_iff.mp h
        exact ⟨_, _, _, .expired, rfl⟩
      · simp only [hpending, hexpired, ↓reduceIte] at h
        obtain ⟨rfl, rfl, rfl⟩ := exec_pure_iff.mp h
        exact ⟨_, _, _, .auditFailed err hpending hexpired, rfl⟩
  | ok u =>
      obtain ⟨_, r, _, _, rfl, -, h⟩ := exec_perform_bind_iff.mp h
      cases r with
      | error err =>
          obtain ⟨rfl, rfl, rfl⟩ := exec_pure_iff.mp h
          exact ⟨_, _, _, .initiateFailed err, rfl⟩
      | ok u =>
          obtain ⟨_, r, _, _, rfl, -, h⟩ := exec_perform_bind_iff.mp h
          cases r with
          | error err =>
              by_cases hpending : err = .auditPending
              · subst hpending
                obtain ⟨rfl, rfl, rfl⟩ := exec_pure_iff.mp h
                exact ⟨_, _, _, .secretPending, rfl⟩
              by_cases hexpired : err = .swapExpired
              · subst hexpired
                obtain ⟨_, r, _, _, rfl, -, h⟩ := exec_perform_bind_iff.mp h
                cases r with
                | error err =>
                    obtain ⟨rfl, rfl, rfl⟩ := exec_pure_iff.mp h
                    exact ⟨_, _, _, .refundFailed err, rfl⟩
                | ok u =>
                    obtain ⟨rfl, rfl, rfl⟩ := exec_pure_iff.mp h
                    exact ⟨_, _, _, .refunded, rfl⟩
              · simp only [hpending, hexpired, ↓reduceIte, ne_eq, not_false_eq_true] at h
                obtain ⟨rfl, rfl, rfl⟩ := exec_pure_iff.mp h
                exact ⟨_, _, _, .secretFailed err hpending hexpired, rfl⟩
          | ok secret =>
              obtain ⟨_, r, _, _, rfl, -, h⟩ := exec_perform_bind_iff.mp h
              cases r with
              | error err =>
                  obtain ⟨rfl, rfl, rfl⟩ := exec_pure_iff.mp h
                  exact ⟨_, _, _, .redeemFailed secret err, rfl⟩
              | ok u =>
                  obtain ⟨rfl, rfl, rfl⟩ := exec_pure_iff.mp h
                  exact ⟨_, _, _, .redeemed secret, rfl⟩

/-- The exits of `initiate` or of `respond`, whichever the request asks for. -/
def PassExit (H : Hashes) (req : SwapRequest) (calls : List Call) (status : Status)
    (err : Option GoError) (remove : Bool) : Prop :=
  if req.blob.shouldInitiateFirst then InitiateExit H req calls status err remove
  else RespondExit req calls status err remove

/-- Either the contracts could not be built and the map stays as it was, or the pass
    is one of `initiate` or `respond`. -/
theorem handleSwap_cases {swapMap : SwapMap} {req : SwapRequest} {w w' : σ}
    {events : List (Event Op Reply σ N)} {out : SwapMap × List Message}
    (h : Exec step (handleSwap H swapMap req) w events out w') :
    (∃ err, events.map Event.call = [⟨.buildSwapContracts req, .error err⟩] ∧
      out = (swapMap, [.error err])) ∨
    (∃ calls status err remove, PassExit H req calls status err remove ∧
      events.map Event.call = ⟨.buildSwapContracts req, .ok ()⟩ :: calls ∧
      out = handleResult swapMap req status err remove) := by
  unfold handleSwap at h
  obtain ⟨_, r, _, _, rfl, -, h⟩ := exec_perform_bind_iff.mp h
  cases r with
  | error err =>
      obtain ⟨rfl, rfl, rfl⟩ := exec_pure_iff.mp h
      exact .inl ⟨err, rfl, rfl⟩
  | ok u =>
      right
      cases hrole : req.blob.shouldInitiateFirst with
      | true =>
          simp only [hrole, ↓reduceIte] at h
          obtain ⟨status, err, remove, hexit, hout⟩ := initiate_exits h
          exact ⟨_, status, err, remove, by simpa [PassExit, hrole] using hexit, rfl, hout⟩
      | false =>
          simp only [hrole, Bool.false_eq_true, ↓reduceIte] at h
          obtain ⟨status, err, remove, hexit, hout⟩ := respond_exits h
          exact ⟨_, status, err, remove, by simpa [PassExit, hrole] using hexit, rfl, hout⟩

/-! ### The result of a pass -/

theorem handleResult_fst (swapMap : SwapMap) (req : SwapRequest) (status : Status)
    (err : Option GoError) (remove : Bool) :
    (handleResult swapMap req status err remove).1 =
      if remove then swapMap.erase req.id else swapMap.insert req.id req := by
  cases remove <;> rfl

theorem handleResult_snd (swapMap : SwapMap) (req : SwapRequest) (status : Status)
    (err : Option GoError) (remove : Bool) :
    (handleResult swapMap req status err remove).2 =
      .receiptUpdate (newReceiptUpdate req.id status) ::
        (err.toList.map .error ++ if remove then [.deleteSwap req.id] else []) := by
  cases remove <;> cases err <;> rfl

/-! ### What holds at every exit -/

/-- A call that ends a swap: a redeem or a refund that returned nil. -/
def Settles : Call → Prop
  | ⟨.redeem _ _, .ok _⟩ => True
  | ⟨.refund _, .ok _⟩ => True
  | _ => False

def Status.Final (status : Status) : Prop :=
  status = .redeemed ∨ status = .refunded ∨ status = .expired

section Exits

variable {req : SwapRequest} {calls : List Call} {status : Status}
  {err : Option GoError} {remove : Bool}

theorem PassExit.remove_iff (h : PassExit H req calls status err remove) :
    remove = true ↔ Status.Final status := by
  unfold PassExit at h
  split at h <;> cases h <;> simp [Status.Final]

theorem PassExit.call_req (h : PassExit H req calls status err remove) :
    ∀ c ∈ calls, c.1.req = req := by
  unfold PassExit at h
  split at h <;> cases h <;> simp [Op.req]

theorem PassExit.not_build (h : PassExit H req calls status err remove) :
    ∀ c ∈ calls, ∀ req', c.1 ≠ .buildSwapContracts req' := by
  unfold PassExit at h
  split at h <;> cases h <;> simp

/-- Only the last call of a pass can settle the swap. -/
theorem PassExit.settles_last (h : PassExit H req calls status err remove) :
    calls.Pairwise fun c _ => ¬ Settles c := by
  unfold PassExit at h
  split at h <;> cases h <;> simp [Settles]

theorem PassExit.remove_of_settles (h : PassExit H req calls status err remove)
    {c : Call} (hc : c ∈ calls) (hsettles : Settles c) : remove = true := by
  unfold PassExit at h
  split at h <;> cases h <;> simp at hc ⊢ <;> grind [Settles]

end Exits

/-! ### Passes -/

section PassStep

variable {s s' : SwapMap × σ} {p : Pass σ N}

/-- Either the contracts could not be built and the map stays as it was, or the pass
    is one of `initiate` or `respond` and stores or deletes the swap. -/
theorem pass_exits (h : PassStep step (task H) s p s') :
    (∃ err, p.calls = [⟨.buildSwapContracts p.req, .error err⟩] ∧ s'.1 = s.1 ∧
      p.batch = [.error err]) ∨
    (∃ calls status err remove, PassExit H p.req calls status err remove ∧
      p.calls = ⟨.buildSwapContracts p.req, .ok ()⟩ :: calls ∧
      s'.1 = (if remove then s.1.erase p.req.id else s.1.insert p.req.id p.req) ∧
      p.batch = .receiptUpdate (newReceiptUpdate p.req.id status) ::
        (err.toList.map .error ++ if remove then [.deleteSwap p.req.id] else [])) := by
  rcases handleSwap_cases h.1 with ⟨err, hcalls, hout⟩ | ⟨calls, status, err, remove, hexit,
    hcalls, hout⟩
  · obtain ⟨hmap, hbatch⟩ := Prod.mk.inj hout
    exact .inl ⟨err, hcalls, hmap, hbatch⟩
  · have hmap : s'.1 = (handleResult s.1 p.req status err remove).1 := congrArg Prod.fst hout
    have hbatch : p.batch = (handleResult s.1 p.req status err remove).2 :=
      congrArg Prod.snd hout
    rw [handleResult_fst] at hmap
    rw [handleResult_snd] at hbatch
    exact .inr ⟨calls, status, err, remove, hexit, hcalls, hmap, hbatch⟩

theorem pass_call_req (h : PassStep step (task H) s p s') : ∀ c ∈ p.calls, c.1.req = p.req := by
  rcases pass_exits h with ⟨err, hcalls, -⟩ | ⟨calls, _, _, _, hexit, hcalls, -⟩
  · simp [hcalls, Op.req]
  · simpa [hcalls, Op.req] using hexit.call_req

theorem pass_call_id (h : PassStep step (task H) s p s') : ∀ c ∈ p.calls, c.1.id = p.req.id := by
  intro c hc
  rw [Op.id, pass_call_req h c hc]

/-- A pass leaves the entries of other swaps as they are. -/
theorem pass_lookup_ne (h : PassStep step (task H) s p s') {id : SwapID}
    (hid : id ≠ p.req.id) : s'.1.lookup id = s.1.lookup id := by
  rcases pass_exits h with ⟨err, -, hmap, -⟩ | ⟨_, _, _, _, -, -, hmap, -⟩
  · rw [hmap]
  · rw [hmap]
    split
    · exact Finmap.lookup_erase_ne hid
    · exact Finmap.lookup_insert_of_ne _ hid

theorem keepsKeys : KeepsKeys step (task H) := by
  intro s p s' h hs
  rcases pass_exits h with ⟨err, -, hmap, -⟩ | ⟨_, _, _, _, -, -, hmap, -⟩
  · rwa [hmap]
  · rw [hmap]
    split
    · exact hs.erase _
    · exact hs.insert _

theorem pass_settles_last (h : PassStep step (task H) s p s') :
    p.calls.Pairwise fun c _ => ¬ Settles c := by
  rcases pass_exits h with ⟨err, hcalls, -⟩ | ⟨calls, _, _, _, hexit, hcalls, -⟩
  · simp [hcalls]
  · simpa [hcalls, Settles] using hexit.settles_last

/-- A swap that was settled in a pass is not in the map after it. -/
theorem pass_not_mem_of_settles (h : PassStep step (task H) s p s') {c : Call}
    (hc : c ∈ p.calls) (hsettles : Settles c) : p.req.id ∉ s'.1 := by
  rcases pass_exits h with ⟨err, hcalls, -⟩ | ⟨calls, _, _, _, hexit, hcalls, hmap, -⟩
  · rw [hcalls, List.mem_singleton] at hc
    subst hc
    exact absurd hsettles (by simp [Settles])
  · rw [hcalls, List.mem_cons] at hc
    rcases hc with rfl | hc
    · exact absurd hsettles (by simp [Settles])
    · rw [hmap, if_pos (hexit.remove_of_settles hc hsettles)]
      exact Finmap.notMem_erase_self

end PassStep

end Swapperd.Immediate
