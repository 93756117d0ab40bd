/-
  Swapperd/BoundedChannel.lean
  ============================
  **Buffered channels**, independent of any one program.

  A channel is a queue that never holds more than its capacity, and the bound is part of
  the value.  `trySend` and `tryReceive` are what a `select` finds ready: a value can be
  sent while there is room, and received while there is one.  The capacity is positive
  where this is used: an unbuffered channel would hand a value over to a receiver, and here
  nothing can ever be sent on it.
-/
import Mathlib.Data.List.Basic

namespace BoundedChannel

/-- A channel of a fixed capacity, for a positive one. -/
structure Chan (α : Type) where
  cap : Nat
  buf : List α
  bounded : buf.length ≤ cap

variable {α : Type}

/-- `make(chan α, cap)` -/
def Chan.make (cap : Nat) : Chan α where
  cap := cap
  buf := []
  bounded := Nat.zero_le cap

@[simp] theorem make_buf (cap : Nat) : (Chan.make cap : Chan α).buf = [] := rfl

@[simp] theorem make_cap (cap : Nat) : (Chan.make cap : Chan α).cap = cap := rfl

@[ext] theorem Chan.ext {c d : Chan α} (hcap : c.cap = d.cap) (hbuf : c.buf = d.buf) : c = d := by
  cases c
  cases d
  subst hcap hbuf
  rfl

namespace Chan

/-- Send a value if there is room for it. -/
def trySend (c : Chan α) (a : α) : Option (Chan α) :=
  if h : c.buf.length < c.cap then
    some ⟨c.cap, c.buf ++ [a], by simpa using Nat.succ_le_of_lt h⟩
  else none

/-- Receive the oldest value if there is one. -/
def tryReceive (c : Chan α) : Option (α × Chan α) :=
  match h : c.buf with
  | [] => none
  | a :: rest =>
      some (a, ⟨c.cap, rest, by
        have hbounded := c.bounded
        rw [h, List.length_cons] at hbounded
        exact Nat.le_of_succ_le hbounded⟩)

theorem trySend_eq_some_iff {c d : Chan α} {a : α} :
    c.trySend a = some d ↔
      c.buf.length < c.cap ∧ d.cap = c.cap ∧ d.buf = c.buf ++ [a] := by
  unfold trySend
  split
  · rename_i hroom
    rw [Option.some_inj]
    constructor
    · rintro rfl
      exact ⟨hroom, rfl, rfl⟩
    · rintro ⟨-, hcap, hbuf⟩
      exact Chan.ext hcap.symm hbuf.symm
  · rename_i hfull
    exact iff_of_false (by simp) fun h => hfull h.1

theorem trySend_eq_none_iff {c : Chan α} {a : α} : c.trySend a = none ↔ c.buf.length = c.cap := by
  have hbounded := c.bounded
  unfold trySend
  split
  · rename_i hroom
    exact iff_of_false (by simp) (Nat.ne_of_lt hroom)
  · rename_i hfull
    exact iff_of_true rfl (Nat.le_antisymm hbounded (Nat.le_of_not_lt hfull))

theorem tryReceive_eq_some_iff {c d : Chan α} {a : α} :
    c.tryReceive = some (a, d) ↔ c.buf = a :: d.buf ∧ d.cap = c.cap := by
  unfold tryReceive
  split
  · rename_i hnil
    exact iff_of_false (by simp) fun h => by simp [hnil] at h
  · rename_i b rest hcons
    constructor
    · intro h
      obtain ⟨rfl, rfl⟩ := Prod.mk.inj (Option.some.inj h)
      exact ⟨hcons, rfl⟩
    · rintro ⟨hbuf, hcap⟩
      obtain ⟨rfl, hrest⟩ := List.cons.inj (hcons.symm.trans hbuf)
      exact congrArg (fun d => some (b, d)) (Chan.ext hcap.symm hrest)

theorem tryReceive_eq_none_iff {c : Chan α} : c.tryReceive = none ↔ c.buf = [] := by
  unfold tryReceive
  split
  · rename_i hnil
    exact iff_of_true rfl hnil
  · rename_i b rest hcons
    exact iff_of_false (by simp) (by simp [hcons])

end Chan

end BoundedChannel
