/-
  Swapperd/ReceiptQueries.lean
  ============================
  **What a caller is shown of the receipts** (`GetSwaps` in `adapter/server/handler.go`).

  The handler reads all receipts into a map and goes through it in some order.  A receipt is
  shown to the passwords that fit its hash, and to everybody when it has none; a hash that
  is not base64 makes the whole request fail.
-/
import Swapperd.Statuses

namespace Swapperd.Statuses

open CallProgram RetryTask TransitionRuns GoLibrary Daemon

def getSwapReceipts (stored : Except GoError (List SwapReceipt)) : Except GoError Receipts := do
  let receipts ← stored
  return receipts.foldl putReceipt ∅

/-- What the loop of `GetSwaps` makes of a receipt: an error, nothing, or what is shown. -/
def showReceipt (D : Config) (password : String) (receipt : SwapReceipt) :
    Except GoError (Option SwapReceipt) :=
  if receipt.passwordHash = "" then .ok (some receipt)
  else
    match decodeString receipt.passwordHash with
    | none => .error (.errorf "corrupted password")
    | some hash =>
        if D.compareHashAndPassword hash password then
          .ok (some { receipt with passwordHash := "" })
        else .ok none

def showReceipts (D : Config) (password : String) :
    List SwapReceipt → Except GoError (List SwapReceipt)
  | [] => .ok []
  | receipt :: receipts => do
      let shown ← showReceipt D password receipt
      let swaps ← showReceipts D password receipts
      return shown.toList ++ swaps

/-- `order` is the one in which the map of receipts is visited. -/
def getSwaps (D : Config) (password : String) (stored : Except GoError (List SwapReceipt))
    (order : List SwapID) : Except GoError (List SwapReceipt) := do
  let receipts ← getSwapReceipts stored
  showReceipts D password (order.filterMap receipts.lookup)

/-- `Receipts` lists the table, in any order. -/
def ListsReceipts (receipts : Receipts) (list : List SwapReceipt) : Prop :=
  ∀ receipt, receipt ∈ list ↔ receipts.lookup receipt.id = some receipt

/-- The orders in which a map may be visited: each key once. -/
def OrderOf {K Req : Type} [DecidableEq K] (store : Store K Req) (order : List K) : Prop :=
  order.Nodup ∧ ∀ k, k ∈ order ↔ k ∈ store

variable {D : Config} {receipts : Receipts}

/-- The receipt with this ID that is listed last. -/
def latestReceipt (list : List SwapReceipt) (id : SwapID) : Option SwapReceipt :=
  (list.filter fun receipt => receipt.id = id).getLast?

theorem lookup_foldl_putReceipt (list : List SwapReceipt) (id : SwapID) :
    (list.foldl putReceipt ∅).lookup id = latestReceipt list id := by
  unfold latestReceipt
  induction list using List.reverseRecOn with
  | nil => simp
  | append_singleton list receipt ih =>
      rw [List.foldl_append, List.foldl_cons, List.foldl_nil, lookup_putReceipt, ih,
        List.filter_append]
      by_cases hid : receipt.id = id <;> simp [hid]

theorem latestReceipt_eq_none_iff {list : List SwapReceipt} {id : SwapID} :
    latestReceipt list id = none ↔ ∀ receipt ∈ list, receipt.id ≠ id := by
  unfold latestReceipt
  rw [List.getLast?_eq_none_iff, List.filter_eq_nil_iff]
  simp

theorem latestReceipt_mem {list : List SwapReceipt} {id : SwapID} {receipt : SwapReceipt}
    (h : latestReceipt list id = some receipt) : receipt ∈ list ∧ receipt.id = id := by
  obtain ⟨hmem, hid⟩ := List.mem_filter.mp (List.mem_of_getLast? h)
  exact ⟨hmem, by simpa using hid⟩

/-- The map that the handler makes is the table. -/
theorem getSwapReceipts_eq (hkeys : KeysAgree SwapReceipt.id receipts) {list : List SwapReceipt}
    (hlist : ListsReceipts receipts list) : getSwapReceipts (.ok list) = .ok receipts := by
  refine congrArg Except.ok (Finmap.ext_lookup ?_)
  intro id
  rw [lookup_foldl_putReceipt]
  cases hlast : latestReceipt list id with
  | none =>
      cases hlookup : receipts.lookup id with
      | none => rfl
      | some receipt =>
          have hid := hkeys id receipt hlookup
          have hmem : receipt ∈ list := (hlist receipt).mpr (hid.symm ▸ hlookup)
          exact absurd hid (latestReceipt_eq_none_iff.mp hlast receipt hmem)
  | some receipt =>
      obtain ⟨hmem, hid⟩ := latestReceipt_mem hlast
      rw [← (hlist receipt).mp hmem, hid]

/-- When every hash decodes, everything that fits is shown. -/
theorem showReceipts_ok {password : String} {list : List SwapReceipt}
    (h : ∀ receipt ∈ list, ∃ shown, showReceipt D password receipt = .ok shown) :
    ∃ swaps, showReceipts D password list = .ok swaps ∧ ∀ receipt ∈ list, ∀ swap,
      showReceipt D password receipt = .ok (some swap) → swap ∈ swaps := by
  induction list with
  | nil => exact ⟨[], rfl, by simp⟩
  | cons receipt list ih =>
      obtain ⟨shown, hshown⟩ := h receipt List.mem_cons_self
      obtain ⟨swaps, hswaps, hall⟩ := ih fun r hr => h r (List.mem_cons_of_mem _ hr)
      refine ⟨shown.toList ++ swaps, ?_, ?_⟩
      · rw [showReceipts, hshown, hswaps]
        rfl
      · intro r hr swap hswap
        rcases List.mem_cons.mp hr with rfl | hr
        · obtain rfl := Except.ok.inj (hshown.symm.trans hswap)
          simp
        · exact List.mem_append_right _ (hall r hr swap hswap)

/-- `GetSwaps` shows a stored receipt to the passwords that it is for. -/
theorem getSwaps_shows (hkeys : KeysAgree SwapReceipt.id receipts) {password : String}
    (h : ∀ id receipt, receipts.lookup id = some receipt →
      ∃ shown, showReceipt D password receipt = .ok shown)
    {list : List SwapReceipt} (hlist : ListsReceipts receipts list) {order : List SwapID}
    (horder : OrderOf receipts order) {id : SwapID} {receipt swap : SwapReceipt}
    (hlookup : receipts.lookup id = some receipt)
    (hswap : showReceipt D password receipt = .ok (some swap)) :
    ∃ swaps, getSwaps D password (.ok list) order = .ok swaps ∧ swap ∈ swaps := by
  have hvisited : ∀ r ∈ order.filterMap receipts.lookup,
      ∃ shown, showReceipt D password r = .ok shown := by
    intro r hr
    obtain ⟨id', -, hlookup'⟩ := List.mem_filterMap.mp hr
    exact h id' r hlookup'
  obtain ⟨swaps, hswaps, hall⟩ := showReceipts_ok hvisited
  refine ⟨swaps, ?_, hall receipt (List.mem_filterMap.mpr ⟨id, ?_, hlookup⟩) swap hswap⟩
  · rw [getSwaps, getSwapReceipts_eq hkeys hlist]
    exact hswaps
  · exact (horder.2 id).mpr (Finmap.mem_of_lookup_eq_some hlookup)

end Swapperd.Statuses
