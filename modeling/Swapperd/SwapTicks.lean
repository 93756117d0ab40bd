/-
  Swapperd/SwapTicks.lean
  =======================
  **The ticks of the two swappers** (`handleTick`).

  Go fixes no order for the range over `swapMap`, and the loop deletes and rewrites the
  entries that it ranges over.  Both swappers are local tasks, so a tick handles every
  swap that it finds once, as if it were alone, in whatever order
  (`ticks_orderIndependent`).
-/
import Swapperd.DelayedRuns
import Swapperd.ImmediateRuns
import Swapperd.TickOrder

namespace Swapperd

open CallProgram RetryTask

/-! ### The immediate swapper -/

namespace Immediate

variable {H : Hashes} {swapMap swapMap' : SwapMap} {req : SwapRequest}

theorem handleResult_sameChange (status : Status) (err : Option GoError) (remove : Bool) :
    SameChange swapMap swapMap' (handleResult swapMap req status err remove)
      (handleResult swapMap' req status err remove) := by
  unfold handleResult
  cases remove with
  | true => exact ⟨rfl, .erase req.blob.id, rfl, rfl⟩
  | false => exact ⟨rfl, .insert req.blob.id req, rfl, rfl⟩

theorem initiate_alike : (initiate H swapMap req req.native req.foreign).Alike
    (fun op => op.id = req.id) (SameChange swapMap swapMap') (initiate H swapMap' req req.native req.foreign) := by
  unfold initiate
  refine .perform_bind rfl fun initiated => ?_
  cases initiated with
  | error err => exact .pure (handleResult_sameChange _ _ _)
  | ok =>
      refine .perform_bind rfl fun audited => ?_
      cases audited with
      | error err =>
          refine .ite (fun _ => .pure (handleResult_sameChange _ _ _)) fun _ => ?_
          refine .ite (fun _ => .pure (handleResult_sameChange _ _ _)) fun _ => ?_
          refine .perform_bind rfl fun refunded => ?_
          cases refunded with
          | error err => exact .pure (handleResult_sameChange _ _ _)
          | ok => exact .pure (handleResult_sameChange _ _ _)
      | ok =>
          refine .perform_bind rfl fun redeemed => ?_
          cases redeemed with
          | error err => exact .pure (handleResult_sameChange _ _ _)
          | ok => exact .pure (handleResult_sameChange _ _ _)

theorem respond_alike : (respond swapMap req req.native req.foreign).Alike
    (fun op => op.id = req.id) (SameChange swapMap swapMap') (respond swapMap' req req.native req.foreign) := by
  unfold respond
  refine .perform_bind rfl fun audited => ?_
  cases audited with
  | error err =>
      refine .ite (fun _ => .pure (handleResult_sameChange _ _ _)) fun _ => ?_
      exact .ite (fun _ => .pure (handleResult_sameChange _ _ _))
        fun _ => .pure (handleResult_sameChange _ _ _)
  | ok =>
      refine .perform_bind rfl fun initiated => ?_
      cases initiated with
      | error err => exact .pure (handleResult_sameChange _ _ _)
      | ok =>
          refine .perform_bind rfl fun secret => ?_
          cases secret with
          | error err =>
              refine .ite (fun _ => .pure (handleResult_sameChange _ _ _)) fun _ => ?_
              refine .ite (fun _ => .pure (handleResult_sameChange _ _ _)) fun _ => ?_
              refine .perform_bind rfl fun refunded => ?_
              cases refunded with
              | error err => exact .pure (handleResult_sameChange _ _ _)
              | ok => exact .pure (handleResult_sameChange _ _ _)
          | ok secret =>
              refine .perform_bind rfl fun redeemed => ?_
              cases redeemed with
              | error err => exact .pure (handleResult_sameChange _ _ _)
              | ok => exact .pure (handleResult_sameChange _ _ _)

theorem handleSwap_alike : (handleSwap H swapMap req).Alike (fun op => op.id = req.id)
    (SameChange swapMap swapMap') (handleSwap H swapMap' req) := by
  unfold handleSwap
  refine .perform_bind rfl fun built => ?_
  cases built with
  | error err => exact .pure ⟨rfl, .keep, rfl, rfl⟩
  | ok => exact .ite (fun _ => initiate_alike) fun _ => respond_alike

theorem task_isLocal {σ : Type} (serve : Server Op Reply σ) : IsLocal (task H) Op.id serve where
  alike _ _ _ := handleSwap_alike
  entries h _ hk := pass_lookup_ne h hk

end Immediate

/-! ### The delayed swapper -/

namespace Delayed

variable {σ : Type} {swapMap swapMap' : SwapMap} {blob : SwapBlob}

/-- The swap that a call polls. -/
def Op.id (op : Op) : SwapID := op.partialSwap.id

/-- The server keeps the ID of every swap that it fills. -/
def ServerKeepsIDs (serve : Server Op Reply σ) : Prop :=
  ∀ op s, Call.KeepsID ⟨op, (serve op s).1⟩

theorem handleDelayedSwapRequest_alike : (handleDelayedSwapRequest swapMap blob).Alike
    (fun op => op.id = blob.id) (SameChange swapMap swapMap')
    (handleDelayedSwapRequest swapMap' blob) := by
  refine .call rfl fun reply => ?_
  show Program.Alike _ _ ((Program.pure (readReply (blob.withPassword "") reply)).bind _)
    ((Program.pure (readReply (blob.withPassword "") reply)).bind _)
  cases readReply (blob.withPassword "") reply with
  | ok filled => exact .pure ⟨rfl, .erase filled.id, rfl, rfl⟩
  | error err =>
      refine .ite (fun _ => .pure ⟨rfl, .erase blob.id, rfl, rfl⟩) fun _ => ?_
      exact .ite (fun _ => .pure ⟨rfl, .insert blob.id blob, rfl, rfl⟩)
        fun _ => .pure ⟨rfl, .insert blob.id blob, rfl, rfl⟩

theorem pass_keeps {serve : Server Op Reply σ} (hserve : ServerKeepsIDs serve)
    {s s' : SwapMap × (SwapID → σ)} {p : Pass (SwapID → σ) Unit}
    (h : PassStep (perKey Op.id serve) task s p s') : ∀ c ∈ p.calls, Call.KeepsID c := by
  intro c hc
  obtain ⟨e, he, rfl⟩ := List.mem_map.mp hc
  have hreply := (h.1.allowed e he).1
  rw [Event.call, hreply]
  exact hserve _ _

theorem task_isLocal {serve : Server Op Reply σ} (hserve : ServerKeepsIDs serve) :
    IsLocal task Op.id serve where
  alike _ _ _ := handleDelayedSwapRequest_alike
  entries h k hk := by
    obtain ⟨c, -, -, hmap⟩ := pass_keepsID h (pass_keeps hserve h)
    rw [hmap]
    split
    · exact Finmap.lookup_erase_ne hk
    · exact Finmap.lookup_insert_of_ne _ hk

end Delayed

/-! ### Both -/

/-- **Ticks do not depend on the order of `swapMap`**, whatever the builders, contracts and
    callbacks answer from what they know of the swap that they are asked about. -/
theorem ticks_orderIndependent {σ τ : Type} (H : Hashes)
    (serve : Server Immediate.Op Immediate.Reply σ) {callback : Server Delayed.Op Delayed.Reply τ}
    (hcallback : Delayed.ServerKeepsIDs callback) :
    OrderIndependent (Immediate.task H) Immediate.Op.id serve ∧
      OrderIndependent Delayed.task Delayed.Op.id callback :=
  ⟨orderIndependent Immediate.keepsKeys (Immediate.task_isLocal serve),
    orderIndependent Delayed.keepsKeys (Delayed.task_isLocal hcallback)⟩

/-- Every operation succeeds, and no delayed swap is filled yet. -/
theorem ticks_orderIndependent_sample :
    OrderIndependent (Immediate.task zeroHashes) Immediate.Op.id
        (fun op n => (match op with
          | .auditSecret _ => .ok (zeroHashes.sha256 [])
          | .buildSwapContracts _ | .initiate _ | .audit _ | .redeem _ _ | .refund _ => .ok (),
          n + 1) : Server Immediate.Op Immediate.Reply Nat) ∧
      OrderIndependent Delayed.task Delayed.Op.id
        (fun op n => (match op with | .post _ => Delayed.noContent, n + 1) :
          Server Delayed.Op Delayed.Reply Nat) := by
  apply ticks_orderIndependent
  rintro ⟨blob⟩ n filled hfilled
  cases hfilled

end Swapperd
