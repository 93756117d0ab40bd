/-
  Swapperd/BootloadFlag.lean
  ==========================
  **The flag that says that a password is loaded.**

  A thread sets the flag of its password after it has written a `Bootload`; the swapper
  reads the pending swaps much later, and the read may fail.  The flag is not reset then.

  `flags_kept` — while no read fails that counts, a flag means that a `Bootload` is on its
  way, or that one was handled and has sent every pending swap of its password.

  `failed_read_remembered` — a read that counts leaves a flag that means neither.
-/
import Swapperd.DaemonOwners

namespace Swapperd.Daemon

open CallProgram RetryTask TransitionRuns GoLibrary

variable {D : Config}

/-! ### Where a `Bootload` is -/

/-- The messages on their way to the swapper. -/
def State.ahead (s : State) : List WalletMessage := s.receiver ++ s.walletIn ++ s.swapperIn

/-- A `Bootload` with this password is on its way. -/
def Queued (password : String) (s : State) : Prop := .bootload password ∈ s.ahead

/-- A `Bootload` with this password is on its way behind the message that the swapper
    takes next. -/
def QueuedBehind (password : String) (s : State) : Prop :=
  .bootload password ∈ s.receiver ++ s.walletIn ++ s.swapperIn.tail

/-- The swapper handles a `Bootload` with this password, and reads the pending swaps. -/
def Label.Loads (password : String) : Label → Prop
  | .swapper (.bootload password') R => password' = password ∧ ∃ pendingSwaps,
      R.pendingSwaps = .ok pendingSwaps
  | _ => False

/-- The current process has loaded the password. -/
def Loaded (past : History) (password : String) : Prop :=
  ∃ u ∈ life past, u.label.Loads password

/-- Every pending swap that matches the password is sent to a child, with the password. -/
def SendsAll (D : Config) (password : String) (u : Transition State Label) : Prop :=
  ∀ R, u.label = .swapper (.bootload password) R → ∀ id blob,
    u.source.pending.lookup id = some blob → resumes D password blob = true →
      handOver R (blob.withPassword password) ∈ (reduce D R (.bootload password)).1

/-- The flag of the password is set. -/
def Flagged (D : Config) (s : State) (password : String) : Prop :=
  Handler.passwordHash D.H password ∈ s.bootloaded

/-- A request of the password can write another `Bootload`. -/
def Triggers (s : State) (D : Config) (password : String) : Prop :=
  ∀ req : Request, req.password = password → ∃ us s', Run (Moves D) s us s' ∧
    (∀ u ∈ us, u.label = .thread) ∧ s'.receiver = s.receiver ++ [.bootload password]

/-! ### What is assumed of a run -/

def Thread.request : Thread → Option Request
  | .bootload req | .writeBootload req | .setBootloaded req | .handle req => some req
  | .writeRequest _ => none

/-- Requests come with these passwords. -/
def Asks (passwords : Set String) (s : State) : Prop :=
  ∀ thread ∈ s.threads, ∀ req, thread.request = some req → req.password ∈ passwords

/-- A read of the pending swaps that succeeds lists the whole table. -/
def ListsAll (s : State) : Label → Prop
  | .swapper (.bootload _) R => ∀ pendingSwaps, R.pendingSwaps = .ok pendingSwaps →
      ∀ id blob, s.pending.lookup id = some blob → blob ∈ pendingSwaps
  | _ => True

/-- When the read for a `Bootload` fails, another is behind it, or the password was loaded
    before, or its flag is not set and no thread is about to set it. -/
def FailsHarmlessly (D : Config) (past : History) (t : Transition State Label) : Prop :=
  ∀ password R err, t.label = .swapper (.bootload password) R → R.pendingSwaps = .error err →
    QueuedBehind password t.source ∨ Loaded past password ∨
      ¬ Flagged D t.source password ∧
        ∀ req, .setBootloaded req ∈ t.source.threads → req.password ≠ password

/-! ### Steps -/

theorem loaded_append {past vs : History} {password : String}
    (h : ∀ v ∈ vs, v.label.isCrash = false) :
    Loaded (past ++ vs) password ↔ Loaded past password ∨ ∃ v ∈ vs, v.label.Loads password := by
  unfold Loaded
  rw [life_append past h]
  simp only [List.mem_append, or_and_right, exists_or]

theorem loaded_concat {past : History} {t : Transition State Label} {password : String}
    (hlive : t.label.isCrash = false) :
    Loaded (past ++ [t]) password ↔ Loaded past password ∨ t.label.Loads password := by
  rw [loaded_append (by simpa using hlive)]
  simp

/-- A `Bootload` is on its way, or one was handled and has read the pending swaps. -/
def Served (past : History) (s : State) (password : String) : Prop :=
  Queued password s ∨ Loaded past password

/-- What holds of the flags after a history. -/
structure FlagsKept (D : Config) (passwords : Set String) (past : History) (s : State) : Prop where
  flags : ∀ hash ∈ s.bootloaded, ∃ password ∈ passwords,
    Handler.passwordHash D.H password = hash ∧ Served past s password
  /-- A thread that is about to set a flag has written its `Bootload`. -/
  setting : ∀ req, .setBootloaded req ∈ s.threads → Served past s req.password

section

variable {passwords : Set String} {past : History}

theorem flagsKept_start (past : History) {pending : PendingTable} {owner : Store SwapID String} :
    FlagsKept D passwords past (.start pending owner) where
  flags hash h := by simp [State.start] at h
  setting req h := by simp [State.start] at h

/-- A step that sets no flag, and after which what was served is served. -/
theorem FlagsKept.of_served {t : Transition State Label}
    (hs : FlagsKept D passwords past t.source) (hflags : t.target.bootloaded = t.source.bootloaded)
    (hsetting : ∀ req, .setBootloaded req ∈ t.target.threads →
      .setBootloaded req ∈ t.source.threads ∨ Queued req.password t.target)
    (hserved : ∀ password, (Flagged D t.source password ∨
      ∃ req, .setBootloaded req ∈ t.source.threads ∧ req.password = password) →
      Served past t.source password → Served (past ++ [t]) t.target password) :
    FlagsKept D passwords (past ++ [t]) t.target where
  flags hash hmem := by
    rw [hflags] at hmem
    obtain ⟨password, hpassword, rfl, hold⟩ := hs.flags hash hmem
    exact ⟨password, hpassword, rfl, hserved password (.inl hmem) hold⟩
  setting req hmem := by
    rcases hsetting req hmem with hold | hqueued
    · exact hserved req.password (.inr ⟨req, hold, rfl⟩) (hs.setting req hold)
    · exact .inl hqueued

/-- No other step than one of the swapper takes a message off its way. -/
theorem queued_moves {s s' : State} {l : Label} (h : Moves D s l s')
    (hl : l = .thread ∨ l = .wallet) {password : String} (hqueued : Queued password s) :
    Queued password s' := by
  unfold Queued State.ahead at hqueued ⊢
  cases h with
  | swapper | immediate | delayed | crash => simp at hl
  | accept h | wallet h =>
      simp only [h, List.mem_append, List.mem_cons] at hqueued ⊢
      tauto
  | writeBootload | writeRequest | tick =>
      simp only [List.mem_append] at hqueued ⊢
      tauto
  | _ => exact hqueued

/-- What a thread does to the flags: it sets that of its request, or none. -/
theorem thread_flags {s s' : State} {l : Label} (h : Moves D s l s')
    (hl : l = .thread ∨ l = .wallet) :
    (s'.bootloaded = s.bootloaded ∨ ∃ req, .setBootloaded req ∈ s.threads ∧
      s'.bootloaded = insert (Handler.passwordHash D.H req.password) s.bootloaded) ∧
      ∀ req, .setBootloaded req ∈ s'.threads →
        .setBootloaded req ∈ s.threads ∨ Queued req.password s' := by
  cases h with
  | swapper | immediate | delayed | crash => simp at hl
  | setBootloaded h =>
      refine ⟨.inr ⟨_, by simp [h], rfl⟩, ?_⟩
      intro req hreq
      left
      simp only [h, List.mem_append, List.mem_cons] at hreq ⊢
      tauto
  | writeBootload h =>
      refine ⟨.inl rfl, ?_⟩
      intro req' hreq
      simp only [h, List.mem_append, List.mem_cons, Thread.setBootloaded.injEq] at hreq ⊢
      rcases hreq with hold | rfl | hold
      · exact .inl (.inl hold)
      · right
        simp [Queued, State.ahead]
      · exact .inl (.inr (.inr hold))
  | http req | accept h | tick | wallet h =>
      refine ⟨.inl rfl, ?_⟩
      intro req' hreq
      left
      simpa using hreq
  | bootloaded h | notBootloaded h | bootloadFailed h | patch h | writeRequest h | done h =>
      refine ⟨.inl rfl, ?_⟩
      intro req' hreq
      left
      simp only [h, List.mem_append, List.mem_cons] at hreq ⊢
      tauto

theorem FlagsKept.front {t : Transition State Label} (hs : FlagsKept D passwords past t.source)
    (h : Moves D t.source t.label t.target) (hl : t.label = .thread ∨ t.label = .wallet)
    (hasks : Asks passwords t.source) : FlagsKept D passwords (past ++ [t]) t.target := by
  have hlive : t.label.isCrash = false := by
    rcases hl with hl | hl <;> rw [hl] <;> rfl
  have hserved : ∀ password, Served past t.source password →
      Served (past ++ [t]) t.target password := by
    intro password
    apply Or.imp
    · exact queued_moves h hl
    · exact fun hloaded => (loaded_concat hlive).mpr (.inl hloaded)
  obtain ⟨hflags, hsetting⟩ := thread_flags h hl
  rcases hflags with hsame | ⟨req, hreq, hinsert⟩
  · exact hs.of_served hsame hsetting fun password _ => hserved password
  · constructor
    · intro hash hmem
      rw [hinsert] at hmem
      rcases Finset.mem_insert.mp hmem with rfl | hold
      · exact ⟨req.password, hasks _ hreq req rfl, rfl, hserved _ (hs.setting req hreq)⟩
      · obtain ⟨password, hpassword, hhash, hbefore⟩ := hs.flags hash hold
        exact ⟨password, hpassword, hhash, hserved password hbefore⟩
    · intro req' hmem
      rcases hsetting req' hmem with hold | hqueued
      · exact hserved req'.password (hs.setting req' hold)
      · exact .inl hqueued

/-- The swapper takes the `Bootload` that it handles off its way, and no other. -/
theorem queued_receives {s s₁ : State} {msg : SwapperMessage} (h : Receives s msg s₁)
    {password : String} :
    Queued password s ↔ Queued password s₁ ∨ msg = .bootload password := by
  unfold Queued State.ahead
  cases h with
  | @wallet msg rest h =>
      have htaken : toSwapper msg = .bootload password ↔ .bootload password = msg := by
        cases msg <;> simp [toSwapper, eq_comm]
      simp only [h, htaken, List.mem_append, List.mem_cons]
      tauto
  | immediate | delayed => simp

theorem receives_behind {s s₁ : State} {password : String}
    (h : Receives s (.bootload password) s₁) : Queued password s₁ ↔ QueuedBehind password s := by
  generalize hmsg : SwapperMessage.bootload password = msg at h
  cases h with
  | wallet h => simp [Queued, QueuedBehind, State.ahead, h]
  | immediate | delayed => cases hmsg

theorem receives_threads {s s₁ : State} {msg : SwapperMessage} (h : Receives s msg s₁) :
    s₁.threads = s.threads ∧ s₁.bootloaded = s.bootloaded := by
  cases h <;> exact ⟨rfl, rfl⟩

theorem flagged_receives {s s₁ : State} {msg : SwapperMessage} {password : String}
    (h : Receives s msg s₁) (hflag : Flagged D s password) : Flagged D s₁ password := by
  unfold Flagged at hflag ⊢
  rwa [(receives_threads h).2]

theorem FlagsKept.swapper {s s' : State} {msg : SwapperMessage} {R : StorageReplies}
    (hs : FlagsKept D passwords past s) (h : Moves D s (.swapper msg R) s')
    (hfails : FailsHarmlessly D past ⟨s, .swapper msg R, s'⟩) :
    FlagsKept D passwords (past ++ [⟨s, .swapper msg R, s'⟩]) s' := by
  have hloaded : ∀ {password}, Loaded (past ++ [⟨s, .swapper msg R, s'⟩]) password ↔
      Loaded past password ∨ Label.Loads password (.swapper msg R) :=
    loaded_concat (t := ⟨s, .swapper msg R, s'⟩) rfl
  generalize hlabel : Label.swapper msg R = l at h
  cases h with
  | swapper h hstored =>
      cases hlabel
      obtain ⟨hthreads, hflags⟩ := receives_threads h
      refine hs.of_served hflags (fun req hreq => .inl (hthreads ▸ hreq)) ?_
      rintro password hcounts (hqueued | hold)
      · rcases (queued_receives h).mp hqueued with hstill | rfl
        · exact .inl hstill
        · -- the `Bootload` itself: its read succeeds, or fails harmlessly
          cases hread : R.pendingSwaps with
          | ok pendingSwaps => exact .inr (hloaded.mpr (.inr ⟨rfl, pendingSwaps, hread⟩))
          | error err =>
              rcases hfails password R err rfl hread with hbehind | hbefore | ⟨hflag, hnone⟩
              · exact .inl ((receives_behind h).mpr hbehind)
              · exact .inr (hloaded.mpr (.inl hbefore))
              · rcases hcounts with hset | ⟨req, hreq, hpassword⟩
                · exact absurd hset hflag
                · exact absurd hpassword (hnone req hreq)
      · exact .inr (hloaded.mpr (.inl hold))
  | _ => cases hlabel

theorem FlagsKept.moves {t : Transition State Label} (hs : FlagsKept D passwords past t.source)
    (h : Moves D t.source t.label t.target) (hasks : Asks passwords t.source)
    (hfails : FailsHarmlessly D past t) : FlagsKept D passwords (past ++ [t]) t.target := by
  have hserved : t.label.isCrash = false → ∀ password, Loaded past password →
      Loaded (past ++ [t]) password :=
    fun hlive password hloaded => (loaded_concat hlive).mpr (.inl hloaded)
  obtain ⟨s, l, s'⟩ := t
  change Moves D s l s' at h
  cases l with
  | thread => exact hs.front h (.inl rfl) hasks
  | wallet => exact hs.front h (.inr rfl) hasks
  | swapper msg R => exact hs.swapper h hfails
  | immediate l =>
      cases h with
      | immediate =>
          exact hs.of_served rfl (fun _ => .inl) fun password _ =>
            Or.imp_right (hserved rfl password)
  | delayed l =>
      cases h with
      | delayed =>
          exact hs.of_served rfl (fun _ => .inl) fun password _ =>
            Or.imp_right (hserved rfl password)
  | crash =>
      cases h with
      | crash => exact flagsKept_start _

end

/-! ### Reads that count -/

/-- When the read of a step does not fail harmlessly, the flag of its password says nothing
    any more, at once or when a thread sets it. -/
theorem harmful_read_remembered {past : History} {t : Transition State Label}
    (h : Moves D t.source t.label t.target) (hfails : ¬ FailsHarmlessly D past t) :
    ∃ us s password, Run (Moves D) t.target us s ∧ (∀ u ∈ us, u.label = .thread) ∧
      Flagged D s password ∧ ¬ Queued password s ∧ ¬ Loaded (past ++ t :: us) password := by
  obtain ⟨s, l, s'⟩ := t
  change Moves D s l s' at h
  simp only [FailsHarmlessly, not_forall, not_or, not_and, not_not] at hfails
  obtain ⟨password, R, err, rfl, hread, hbehind, hloaded, hflag⟩ := hfails
  generalize hlabel : Label.swapper (.bootload password) R = l at h
  cases h with
  | @swapper s₁ msg R pending h hstored =>
      cases hlabel
      obtain ⟨hthreads, hflags⟩ := receives_threads h
      have hqueued : ¬ Queued password s₁ := mt (receives_behind h).mp hbehind
      have hnone : ¬ Label.Loads password (.swapper (.bootload password) R) := by
        rintro ⟨-, pendingSwaps, hok⟩
        cases hok.symm.trans hread
      by_cases hset : Flagged D s password
      · refine ⟨[], _, password, .nil _, by simp, ?_, hqueued, ?_⟩
        · have hset₁ : Flagged D s₁ password := flagged_receives h hset
          exact hset₁
        · rw [loaded_append (by simp [Label.isCrash])]
          simpa using ⟨hloaded, hnone⟩
      · obtain ⟨req, hreq, hpassword⟩ := hflag hset
        obtain ⟨pre, post, hsplit⟩ := List.append_of_mem (hthreads ▸ hreq)
        refine ⟨_, _, password, .cons (.setBootloaded hsplit) (.nil _), by simp, ?_, hqueued, ?_⟩
        · rw [← hpassword]
          exact Finset.mem_insert_self _ _
        · rw [loaded_append (by simp [Label.isCrash])]
          have hthread : ¬ Label.Loads password .thread := id
          simpa using ⟨hloaded, hnone, hthread⟩
  | _ => cases hlabel

/-- The flag of the password is set, and no `Bootload` of it is on its way or about to be
    written. -/
structure Forgotten (D : Config) (password : String) (s : State) : Prop where
  flagged : Flagged D s password
  unqueued : ¬ Queued password s
  unwritten : ∀ req, .writeBootload req ∈ s.threads → req.password ≠ password

/-- A password stays forgotten for the life of the process. -/
theorem Forgotten.moves {password : String} {s s' : State} {l : Label}
    (hs : Forgotten D password s) (h : Moves D s l s') (hlive : l.isCrash = false) :
    Forgotten D password s' := by
  obtain ⟨hflag, hqueued, hwrites⟩ := hs
  cases h with
  | http req =>
      refine ⟨hflag, hqueued, ?_⟩
      simpa using hwrites
  | @notBootloaded pre post req h hunset =>
      refine ⟨hflag, hqueued, ?_⟩
      intro req' hreq
      simp only [h, List.mem_append, List.mem_cons, Thread.writeBootload.injEq, reduceCtorEq,
        false_or] at hwrites hreq
      rcases hreq with hold | rfl | hold
      · exact hwrites req' (.inl hold)
      · rintro rfl
        exact hunset hflag
      · exact hwrites req' (.inr hold)
  | @writeBootload pre post req h =>
      have hne : req.password ≠ password := hwrites req (by simp [h])
      refine ⟨hflag, ?_, ?_⟩
      · simpa [Queued, State.ahead, hne.symm] using hqueued
      · intro req' hreq
        apply hwrites
        simp only [h, List.mem_append, List.mem_cons] at hreq ⊢
        tauto
  | setBootloaded h =>
      refine ⟨Finset.mem_insert_of_mem hflag, hqueued, ?_⟩
      intro req' hreq
      apply hwrites
      simp only [h, List.mem_append, List.mem_cons] at hreq ⊢
      tauto
  | bootloaded h | bootloadFailed h | patch h | done h =>
      refine ⟨hflag, hqueued, ?_⟩
      intro req' hreq
      apply hwrites
      simp only [h, List.mem_append, List.mem_cons] at hreq ⊢
      tauto
  | writeRequest h =>
      refine ⟨hflag, by simpa [Queued, State.ahead] using hqueued, ?_⟩
      intro req' hreq
      apply hwrites
      simp only [h, List.mem_append, List.mem_cons] at hreq ⊢
      tauto
  | accept h | wallet h =>
      refine ⟨hflag, ?_, hwrites⟩
      simp only [Queued, State.ahead, h, List.mem_append, List.mem_cons] at hqueued ⊢
      tauto
  | tick => exact ⟨hflag, by simpa [Queued, State.ahead] using hqueued, hwrites⟩
  | swapper h hstored =>
      obtain ⟨hthreads, hflags⟩ := receives_threads h
      have hflag₁ := flagged_receives h hflag
      refine ⟨hflag₁, ?_, fun req hreq => hwrites req (hthreads ▸ hreq)⟩
      intro hmem
      exact hqueued ((queued_receives h).mpr (.inl hmem))
  | immediate | delayed => exact ⟨hflag, hqueued, hwrites⟩
  | crash => cases hlive

/-! ### Runs -/

/-- With its flag not set a request writes a `Bootload`. -/
theorem triggers_of_not_flagged {s : State} {password : String}
    (h : ¬ Flagged D s password) : Triggers s D password := by
  rintro req rfl
  refine ⟨_, _, .cons (.http req) <| .cons (@Moves.notBootloaded _ _ [] _ req rfl h) <|
    .cons (@Moves.writeBootload _ _ [] _ req rfl) (.nil _), ?_, rfl⟩
  simp

theorem bootload_sendsAll {u : Transition State Label} {password : String}
    (hlists : ListsAll u.source u.label) (hloads : u.label.Loads password) :
    SendsAll D password u := by
  intro R hlabel id blob hlookup hresumes
  rw [hlabel] at hlists hloads
  obtain ⟨-, pendingSwaps, hread⟩ := hloads
  have hmem : blob ∈ pendingSwaps := hlists pendingSwaps hread id blob hlookup
  simp only [reduce, handleBootload, hread]
  exact List.mem_map.mpr ⟨blob, List.mem_filter.mpr ⟨hmem, hresumes⟩, rfl⟩

/-- **Flags are kept.**  In every run in which requests come with passwords whose hashes
    differ, a read that succeeds lists the whole table, and reads fail harmlessly: whenever
    the flag of a password is set, a `Bootload` of it is on its way, or the process has
    handled one that has sent every pending swap that matches it.  Whenever the flag is
    not set, a request can write another `Bootload`. -/
theorem flags_kept {passwords : Set String}
    (hdiffer : Set.InjOn (Handler.passwordHash D.H) passwords) {s : State}
    {ts : List (Transition State Label)} (h : Run (Moves D) .init ts s)
    (hasks : ∀ t ∈ ts, Asks passwords t.source) (hlists : ∀ t ∈ ts, ListsAll t.source t.label)
    (hfails : ∀ us t vs, ts = us ++ t :: vs → FailsHarmlessly D us t) :
    ∀ us t vs, ts = us ++ t :: vs → ∀ password ∈ passwords,
      (Flagged D t.target password → Queued password t.target ∨
        ∃ u ∈ life (us ++ [t]), u.label.Loads password ∧ SendsAll D password u) ∧
      (¬ Flagged D t.target password → Triggers t.target D password) := by
  have hmem : ∀ {us t vs}, ts = us ++ t :: vs → ∀ u ∈ us ++ [t], u ∈ ts := by
    rintro us t vs rfl u hu
    simp only [List.mem_append, List.mem_cons] at hu ⊢
    tauto
  obtain ⟨-, hall⟩ := h.history (P := FlagsKept D passwords)
    (C := fun past t => Asks passwords t.source ∧ FailsHarmlessly D past t)
    (fun hs hmoves hC => hs.moves hmoves hC.1 hC.2) (flagsKept_start [])
    fun us t vs hts => ⟨hasks t (hmem hts t (by simp)), hfails us t vs hts⟩
  intro us t vs hts password hpassword
  refine ⟨?_, triggers_of_not_flagged⟩
  have hbefore : FlagsKept D passwords us t.source := hall us t vs hts
  have ht := hmem hts t (by simp)
  have hs := hbefore.moves (h.step_of_mem t ht) (hasks t ht) (hfails us t vs hts)
  intro hflag
  obtain ⟨password', hpassword', hhash, hserved⟩ := hs.flags _ hflag
  obtain rfl := hdiffer hpassword' hpassword hhash
  apply hserved.imp_right
  rintro ⟨u, hu, hloads⟩
  have hu' : u ∈ us ++ [t] := List.rtakeWhile_suffix _ _ |>.subset hu
  exact ⟨u, hu, hloads, bootload_sendsAll (hlists u (hmem hts u hu')) hloads⟩

/-! ### Failing reads

Alice's swap is in the table when the daemon is restarted, and she comes back. -/

def failedReplies : StorageReplies :=
  { storageReplies [] with pendingSwaps := .error (.errorf "leveldb: closed") }

theorem failed_lists (pending : PendingTable) : Lists pending failedReplies.pendingSwaps := by
  intro pendingSwaps hpending
  cases hpending

/-- The read for her request fails after the flag is set. Her swap is not executed for the
    life of the process, whatever she asks for. -/
theorem failed_read_remembered : ∃ s ts blob, Run (Moves ownerConfig) .init ts s ∧
    s.pending.lookup blob.id = some blob ∧ resumes ownerConfig "alice" blob = true ∧
    Flagged ownerConfig s "alice" ∧ ¬ Queued "alice" s ∧ ¬ Loaded ts "alice" ∧
    ∀ us s', Run (Moves ownerConfig) s us s' → (∀ u ∈ us, u.label.isCrash = false) →
      Flagged ownerConfig s' "alice" ∧ ¬ Queued "alice" s' := by
  have hresumes : resumes ownerConfig "alice" (hashedBlob ownedBlob.passwordHash) = true := by
    decide +kernel
  obtain ⟨s, ts, hrun, -, -, -, -, hpending, -⟩ := hashed_fill_run ownedBlob.passwordHash
  obtain ⟨vs, s', hrest, hlive, hloads, hpending', hforgotten⟩ : ∃ vs s',
      Run (Moves ownerConfig) (.start s.pending s.owner) vs s' ∧
        (∀ v ∈ vs, v.label.isCrash = false) ∧ (∀ v ∈ vs, ¬ v.label.Loads "alice") ∧
          s'.pending = s.pending ∧ Forgotten ownerConfig "alice" s' := by
    refine ⟨_, _, .cons (.http (.get "alice")) <|
      .cons (@Moves.notBootloaded _ _ [] [] _ rfl (by simp [State.start])) <|
      .cons (@Moves.writeBootload _ _ [] [] _ rfl) <|
      .cons (@Moves.setBootloaded _ _ [] [] _ rfl) <| .cons (.accept rfl) <|
      .cons (.wallet rfl) <|
      .cons (swapper_moves (R := failedReplies) (.wallet rfl) ⟨rfl, failed_lists _⟩ rfl) (.nil _),
      ?_, ?_, rfl, Finset.mem_insert_self _ _, ?_, ?_⟩
    · simp [Label.isCrash]
    · simp [Label.Loads, toSwapper, failedReplies]
    · simp [Queued, State.ahead, State.swapped, State.start]
    · simp [State.swapped, State.start]
  refine ⟨s', _, _, hrun.append (.cons .crash hrest), hpending' ▸ hpending, hresumes,
    hforgotten.flagged, hforgotten.unqueued, ?_, ?_⟩
  · rw [← List.singleton_append, ← List.append_assoc, loaded_append hlive]
    rintro (⟨u, hu, -⟩ | ⟨v, hv, hloaded⟩)
    · simp [life_concat, Label.isCrash] at hu
    · exact hloads v hv hloaded
  · intro us s'' hus hcrash
    obtain ⟨hlast, -⟩ := hus.invariant (P := Forgotten ownerConfig "alice")
      (C := fun _ l => l.isCrash = false) Forgotten.moves hforgotten hcrash
    exact ⟨hlast.flagged, hlast.unqueued⟩

/-- Two of her requests write a `Bootload`. The read for the first one fails, that for the
    second one does not. -/
theorem flags_kept_second_read : ∃ s ts, Run (Moves sampleConfig) .init ts s ∧
    (∃ t ∈ ts, t.label = .swapper (.bootload "alice") failedReplies) ∧
    Flagged sampleConfig s "alice" ∧
    ∀ us t vs, ts = us ++ t :: vs → ∀ password ∈ ({"alice"} : Set String),
      (Flagged sampleConfig t.target password → Queued password t.target ∨
        ∃ u ∈ life (us ++ [t]), u.label.Loads password ∧ SendsAll sampleConfig password u) ∧
      (¬ Flagged sampleConfig t.target password → Triggers t.target sampleConfig password) := by
  obtain ⟨s, ts, hrun, hasks, hlists, hfails, hfailed, hflag⟩ : ∃ s ts,
      Run (Moves sampleConfig) .init ts s ∧ (∀ t ∈ ts, Asks {"alice"} t.source) ∧
        (∀ t ∈ ts, ListsAll t.source t.label) ∧
        (∀ t ∈ ts, ∀ password R err, t.label = .swapper (.bootload password) R →
          R.pendingSwaps = .error err → QueuedBehind password t.source) ∧
        (∃ t ∈ ts, t.label = .swapper (.bootload "alice") failedReplies) ∧
        Flagged sampleConfig s "alice" := by
    refine ⟨_, _, .cons (.http (.get "alice")) <| .cons (.http (.get "alice")) <|
      .cons (@Moves.notBootloaded _ _ [] _ _ rfl (by simp [State.init, State.start])) <|
      .cons (@Moves.notBootloaded _ _ [_] _ _ rfl (by simp [State.init, State.start])) <|
      .cons (@Moves.writeBootload _ _ [] _ _ rfl) <|
      .cons (@Moves.writeBootload _ _ [_] _ _ rfl) <|
      .cons (@Moves.setBootloaded _ _ [] _ _ rfl) <|
      .cons (.accept rfl) <| .cons (.accept rfl) <| .cons (.wallet rfl) <| .cons (.wallet rfl) <|
      .cons (swapper_moves (R := failedReplies) (.wallet rfl) ⟨rfl, failed_lists _⟩ rfl) <|
      .cons (swapper_moves (R := storageReplies []) (.wallet rfl)
        ⟨rfl, by simp [Lists, storageReplies]⟩ rfl) (.nil _), ?_, ?_, ?_, ?_,
      Finset.mem_insert_self _ _⟩
    · simp [Asks, State.init, State.start, State.swapped, Thread.request, Request.password]
    · simp [ListsAll, toSwapper, failedReplies, State.swapped, State.init, State.start]
    · simp +contextual [toSwapper, storageReplies, QueuedBehind, Request.password, eq_comm,
        State.init, State.start]
    · simp [toSwapper, Request.password]
  refine ⟨s, ts, hrun, hfailed, hflag, ?_⟩
  apply flags_kept (Set.injOn_singleton _ _) hrun hasks hlists
  rintro us t vs rfl password R err hlabel hread
  exact .inl (hfails t (by simp) password R err hlabel hread)

end Swapperd.Daemon
