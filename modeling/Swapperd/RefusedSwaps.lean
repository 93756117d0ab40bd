/-
  Swapperd/RefusedSwaps.lean
  ==========================
  **What becomes of a swap that the swapper refuses** (`handleSwapRequest` and
  `handleBootload` in `core/wallet/swapper`).

  The swapper answers a request with an error when `PutSwap` fails, and hands it to no
  child.  A later `Bootload` resumes what is in the table of pending swaps.  When no
  failing `PutSwap` has written that table, only accepted requests are handed over
  (`handed_accepted`), and nothing is ever done for a refused one (`refused_quiet`).
-/
import Swapperd.SwapWrites
import Swapperd.WriteAhead

namespace Swapperd.Daemon

open CallProgram RetryTask TransitionRuns GoLibrary
open scoped Swapperd.Storage

variable {D : Config}

/-! ### Requests -/

/-- The swapper takes a request for the swap from the wallet. -/
def Label.requests (id : SwapID) : Label → Bool
  | .swapper (.swapRequest blob) _ => blob.id = id
  | _ => false

/-- The swapper takes it and stores the swap. -/
def Label.Accepts (id : SwapID) : Label → Prop
  | .swapper (.swapRequest blob) R => blob.id = id ∧ R.putSwap = .ok ()
  | _ => False

/-- The swapper takes it and answers it with an error. -/
def Label.Refuses (id : SwapID) : Label → Prop
  | .swapper (.swapRequest blob) R => blob.id = id ∧ ∃ err, R.putSwap = .error err
  | _ => False

/-- No callback server fills another swap under this ID. -/
def Label.FillsOwn (id : SwapID) : Label → Prop
  | .delayed l => ∀ c ∈ l.calls, ∀ filled, Delayed.Call.answer c = .ok filled →
      filled.id = id → Delayed.Call.id c = id
  | _ => True

/-- A `PutSwap` that fails leaves the table of pending swaps as it was. -/
def RefusesCleanly (t : Transition State Label) : Prop :=
  ∀ msg R blob err, t.label = .swapper msg R → msg.blob = some blob → R.putSwap = .error err →
    t.target.pending = t.source.pending

/-- The swapper stored this swap, with this or another password, when it took it. -/
def Accepted (past : History) (blob : SwapBlob) : Prop :=
  ∃ t ∈ past, ∃ msg R accepted, t.label = .swapper msg R ∧ msg.blob = some accepted ∧
    R.putSwap = .ok () ∧ accepted.withPassword "" = blob.withPassword ""

theorem Accepted.mono {past : History} {blob : SwapBlob} (h : Accepted past blob)
    (t : Transition State Label) : Accepted (past ++ [t]) blob := by
  obtain ⟨u, hu, hrest⟩ := h
  exact ⟨u, List.mem_append_left _ hu, hrest⟩

theorem Accepted.withPassword {past : History} {blob : SwapBlob} (h : Accepted past blob)
    (password : String) : Accepted past (blob.withPassword password) := by
  obtain ⟨u, hu, msg, R, accepted, hlabel, hmsg, hputs, heq⟩ := h
  exact ⟨u, hu, msg, R, accepted, hlabel, hmsg, hputs, by rw [heq]; simp⟩

/-- A request that is refused is not handed over. -/
theorem reduce_refused {R : StorageReplies} {msg : SwapperMessage} {blob : SwapBlob}
    {err : GoError} (hmsg : msg.blob = some blob) (herr : R.putSwap = .error err) :
    (reduce D R msg).1 = [] := by
  have hrefused : ∀ blob, (handleSwapRequest R blob).1 = [] := by
    intro blob
    unfold handleSwapRequest
    rw [herr]
  cases msg with
  | swapRequest blob => exact hrefused blob
  | delayed msg =>
      cases msg with
      | swapRequest blob => exact hrefused blob
      | _ => cases hmsg
  | _ => cases hmsg

/-! ### Accepted swaps -/

section Accepted

variable {past : History} {t : Transition State Label} {pending pending' : PendingTable}
  {msg : SwapperMessage} {R : StorageReplies}

theorem stored_accepted (hs : Stores (Accepted past) pending) (hlabel : t.label = .swapper msg R)
    (hstored : Stored pending R msg pending')
    (hclean : ∀ blob err, msg.blob = some blob → R.putSwap = .error err → pending' = pending) :
    Stores (Accepted (past ++ [t])) pending' := by
  have hold : Stores (Accepted (past ++ [t])) pending :=
    fun k blob hlookup => (hs k blob hlookup).mono t
  rcases hstored.cases with ⟨blob, hblob, hputs⟩ | ⟨-, ⟨id, ⟨rfl, -⟩ | ⟨rfl, -⟩⟩ | rfl⟩
  · cases hresult : R.putSwap with
    | error err =>
        rw [hclean blob err hblob hresult]
        exact hold
    | ok u =>
        rcases hputs with rfl | ⟨-, err, herr⟩
        · apply hold.insert
          refine ⟨t, by simp, msg, R, blob, hlabel, hblob, hresult, ?_⟩
          simp
        · cases hresult.symm.trans herr
  · exact hold.erase id
  · exact hold
  · exact hold

/-- The table has accepted swaps only. -/
theorem pending_accepted (hs : Stores (Accepted past) t.source.pending)
    (h : Moves D t.source t.label t.target) (hclean : RefusesCleanly t) :
    Stores (Accepted (past ++ [t])) t.target.pending := by
  have hold : Stores (Accepted (past ++ [t])) t.source.pending :=
    fun k blob hlookup => (hs k blob hlookup).mono t
  obtain ⟨s, l, s'⟩ := t
  dsimp only at hs h hold ⊢
  cases l with
  | thread => exact (front_sameBack h (.inl rfl)).pending ▸ hold
  | wallet => exact (front_sameBack h (.inr rfl)).pending ▸ hold
  | swapper msg R =>
      cases h with
      | swapper h hstored =>
          exact stored_accepted hs rfl hstored fun blob err => hclean msg R blob err rfl
  | immediate l =>
      cases h with
      | immediate => exact hold
  | delayed l =>
      cases h with
      | delayed => exact hold
  | crash =>
      cases h with
      | crash => exact hold

theorem sent_accepted (hs : Stores (Accepted past) t.source.pending)
    (h : Moves D t.source t.label t.target) {blob : SwapBlob} (hblob : blob ∈ sentBlobs D t.label) :
    Accepted (past ++ [t]) blob := by
  obtain ⟨s, l, s'⟩ := t
  dsimp only at hs h hblob
  cases h with
  | @swapper _ msg R _ h hstored =>
      obtain ⟨send, hsend, hsendBlob⟩ := mem_sentBlobs hblob
      obtain ⟨-, hmsg | ⟨password, pendingSwaps, rfl, hpending, pendingSwap, hmem, -, rfl⟩⟩ :=
        reduce_sends hsend hsendBlob
      · cases hresult : R.putSwap with
        | error err =>
            rw [reduce_refused hmsg hresult] at hsend
            cases hsend
        | ok u => exact ⟨_, List.mem_concat_self, msg, R, blob, rfl, hmsg, hresult, rfl⟩
      · obtain ⟨-, hlists⟩ := hstored
        have hlookup := (hlists pendingSwaps hpending).2 pendingSwap hmem
        exact ((hs _ _ hlookup).mono _).withPassword password
  | _ => cases hblob

end Accepted

/-- Every swap that is handed over was accepted before, as it is but for the password. -/
theorem handed_accepted {s : State} {ts us vs : History} {t : Transition State Label}
    (h : Run (Moves D) .init ts s) (hclean : ∀ t ∈ ts, RefusesCleanly t)
    (hts : ts = us ++ t :: vs) {blob : SwapBlob} (hblob : blob ∈ sentBlobs D t.label) :
    Accepted (us ++ [t]) blob := by
  have hinit : Stores (Accepted []) State.init.pending := stores_empty _
  obtain ⟨-, hall⟩ := h.history (P := fun past s => Stores (Accepted past) s.pending)
    (C := fun _ t => RefusesCleanly t) pending_accepted hinit (by
      rintro us t vs rfl
      exact hclean t (by simp))
  have hstep := h.step_of_mem t (by simp [hts])
  exact sent_accepted (by simpa using hall us t vs hts) hstep hblob

/-! ### One ID

The wallet sends a request for one ID at most; from then on the swap is known only when
the request was accepted. -/

/-- The state without the swaps that have not reached the swapper. -/
def State.back (s : State) : State :=
  { s with threads := [], receiver := [], walletIn := [], swapperIn := [] }

/-- The swap has this ID only if the swapper has accepted a request with it. -/
def Known (id : SwapID) (past : History) (blob : SwapBlob) : Prop :=
  blob.id = id → ∃ t ∈ past, t.label.Accepts id

/-- The requests with this ID that the swapper has taken from the wallet. -/
def taken (id : SwapID) (past : History) : Nat := past.countP fun t => t.label.requests id

structure OnceTaken (id : SwapID) (past : History) (s : State) : Prop where
  back : Everywhere (Known id past) s.back
  once : s.upstream id + taken id past ≤ 1
  fresh : id ∉ s.owner → s.upstream id + taken id past = 0

section

variable {id : SwapID} {past : History} {t : Transition State Label} {s s' : State}

theorem Known.mono {blob : SwapBlob} (h : Known id past blob) (t : Transition State Label) :
    Known id (past ++ [t]) blob := by
  intro hid
  obtain ⟨u, hu, haccepts⟩ := h hid
  exact ⟨u, List.mem_append_left _ hu, haccepts⟩

theorem taken_concat (id : SwapID) (past : History) (t : Transition State Label) :
    taken id (past ++ [t]) = taken id past + if t.label.requests id then 1 else 0 := by
  simp [taken, List.countP_append, List.countP_cons]

/-- Nothing is admitted from a state to itself. -/
theorem not_admitted_self {now : Int} {blob : SwapBlob} : ¬ Admitted D s s now blob := by
  intro h
  apply h.fresh
  rw [h.owner]
  exact Finmap.mem_insert.mpr (.inl rfl)

theorem carries_known {l : Label} (hfills : l.FillsOwn id) :
    Carries D (Known id past) (Known id (past ++ [t])) s l s where
  keeps blob h := h.mono t
  admits _ _ h := absurd h not_admitted_self
  resumes _ _ _ _ _ _ _ _ _ h := by simpa [Known] using h
  fills := by
    rintro reduction rfl c hc filled hanswer - password h hid
    have hown : Delayed.Call.id c = id := hfills c hc filled hanswer (by simpa using hid)
    exact h.mono t (by simpa [Delayed.Call.id] using hown)

/-- The swapper takes its message also from a state that has nothing else on the way. -/
theorem receives_back {P : SwapBlob → Prop} {s₁ : State} {msg : SwapperMessage}
    (hs : Everywhere P s.back) (h : Receives s msg s₁)
    (hmsg : ∀ blob, msg = .swapRequest blob → P blob) :
    ∃ s₀, Everywhere P s₀ ∧ s₀.pending = s.pending ∧ Receives s₀ msg s₁.back := by
  cases h with
  | @wallet msg rest h =>
      have hback : SameBack s.back { s.back with swapperIn := [msg] } :=
        ⟨rfl, rfl, rfl, rfl, rfl, rfl, rfl⟩
      refine ⟨{ s.back with swapperIn := [msg] }, ?_, rfl, .wallet rfl⟩
      apply hs.of_front hback
      intro blob hblob
      cases msg with
      | swapRequest blob' =>
          obtain rfl : blob = blob' := by
            simpa [State.front, State.back, WalletMessage.blob] using hblob
          exact hmsg blob rfl
      | bootload | tick => simp [State.front, State.back, WalletMessage.blob] at hblob
  | immediate h => exact ⟨s.back, hs, rfl, .immediate h⟩
  | delayed h => exact ⟨s.back, hs, rfl, .delayed h⟩

theorem back_swapper {s₁ : State} {msg : SwapperMessage} {R : StorageReplies}
    {pending : PendingTable} (hs : Everywhere (Known id past) s.back) (h : Receives s msg s₁)
    (hstored : Stored s.pending R msg pending) (hlabel : t.label = .swapper msg R)
    (hclean : ∀ blob err, msg.blob = some blob → R.putSwap = .error err → pending = s.pending) :
    Everywhere (Known id (past ++ [t])) (s₁.swapped pending msg (reduce D R msg).1).back := by
  have hs' := hs.mono fun blob h => h.mono t
  by_cases hrefused : t.label.Refuses id
  · -- nothing is sent, nothing is written
    rw [hlabel] at hrefused
    cases h with
    | immediate h | delayed h => cases hrefused
    | @wallet msg rest h =>
        cases msg with
        | bootload | tick => cases hrefused
        | swapRequest blob =>
            obtain ⟨-, err, herr⟩ := hrefused
            rw [reduce_refused rfl herr, hclean blob err rfl herr]
            apply hs'.of_front
            · refine ⟨List.append_nil _, rfl, List.append_nil _, rfl, rfl, rfl, List.append_nil _⟩
            · simp [State.front, State.back]
  · obtain ⟨s₀, hs₀, hpending, hreceives⟩ := receives_back hs' h (by
      rintro blob rfl hid
      refine ⟨t, List.mem_concat_self, ?_⟩
      rw [hlabel] at hrefused ⊢
      cases hresult : R.putSwap with
      | error err => exact absurd ⟨hid, err, hresult⟩ hrefused
      | ok u => exact ⟨hid, hresult⟩)
    exact hs₀.swapper_moves hreceives (hpending ▸ hstored) (carries_known (t := t) trivial)

/-- Behind the swapper's queue the swap is known only when it was accepted. -/
theorem back_moves (hs : Everywhere (Known id past) t.source.back)
    (h : Moves D t.source t.label t.target) (hclean : RefusesCleanly t)
    (hfills : t.label.FillsOwn id) : Everywhere (Known id (past ++ [t])) t.target.back := by
  have hs' := hs.mono fun blob h => h.mono t
  have hfront : t.label = .thread ∨ t.label = .wallet →
      Everywhere (Known id (past ++ [t])) t.target.back := by
    intro hl
    have hback := front_sameBack h hl
    exact hs'.of_front { hback with } (by simp [State.front, State.back])
  obtain ⟨s, l, s'⟩ := t
  dsimp only at hs hs' h hfront ⊢
  cases l with
  | thread => exact hfront (.inl rfl)
  | wallet => exact hfront (.inr rfl)
  | swapper msg R =>
      cases h with
      | swapper h hstored =>
          exact back_swapper hs h hstored rfl fun blob err => hclean msg R blob err rfl
  | immediate l =>
      cases h with
      | immediate h hstart hreduces => exact hs'.immediate_moves h hstart hreduces
  | delayed l =>
      cases h with
      | delayed h hstart hreduces =>
          exact hs.delayed_moves h hstart hreduces (carries_known (D := D) hfills)
  | crash =>
      cases h with
      | crash => exact everywhere_start hs'.pending

/-- A request that is taken is no longer on its way; only admission adds one. -/
theorem moves_upstream {l : Label} (h : Moves D s l s') (id : SwapID) :
    s'.owner = s.owner ∧
        s'.upstream id + (if l.requests id then 1 else 0) ≤ s.upstream id ∨
      l.requests id = false ∧ ∃ now blob, Admitted D s s' now blob := by
  cases l with
  | thread | wallet =>
      rcases front_cases h (by simp) with ⟨hsub, howner⟩ | hadmitted
      · exact .inl ⟨howner, hsub.countP_le _⟩
      · exact .inr ⟨rfl, hadmitted⟩
  | swapper msg R =>
      cases h with
      | @swapper s₁ _ _ pending h hstored =>
          have htakes := receives_takes h id
          have hup : (s₁.swapped pending msg (reduce D R msg).1).upstream id = s₁.upstream id := rfl
          left
          rw [hup]
          cases h with
          | @wallet msg rest h =>
              refine ⟨rfl, ?_⟩
              have hmsg : (toSwapper msg).takes id =
                  if (Label.swapper (toSwapper msg) R).requests id then 1 else 0 := by
                cases msg <;> simp [toSwapper, SwapperMessage.takes, Label.requests]
              rw [← hmsg]
              dsimp only at htakes
              omega
          | immediate h => exact ⟨rfl, le_refl _⟩
          | delayed h => exact ⟨rfl, le_refl _⟩
  | immediate l =>
      cases h with
      | immediate => exact .inl ⟨rfl, le_refl _⟩
  | delayed l =>
      cases h with
      | delayed => exact .inl ⟨rfl, le_refl _⟩
  | crash =>
      cases h with
      | crash => exact .inl ⟨rfl, Nat.zero_le _⟩

theorem OnceTaken.moves (hs : OnceTaken id past t.source)
    (h : Moves D t.source t.label t.target) (hclean : RefusesCleanly t)
    (hfills : t.label.FillsOwn id) : OnceTaken id (past ++ [t]) t.target := by
  have honce := hs.once
  rcases moves_upstream h id with ⟨howner, hle⟩ | ⟨hnot, now, blob, hadmitted⟩
  · refine ⟨back_moves hs.back h hclean hfills, ?_, ?_⟩
    · rw [taken_concat]
      omega
    · intro hid
      have hzero := hs.fresh (howner ▸ hid)
      rw [taken_concat]
      omega
  · have hup : t.target.upstream id = t.source.upstream id + if blob.id = id then 1 else 0 := by
      simp [State.upstream, hadmitted.front.countP_eq, List.countP_cons]
    have htaken : taken id (past ++ [t]) = taken id past := by
      rw [taken_concat, hnot]
      rfl
    refine ⟨back_moves hs.back h hclean hfills, ?_, ?_⟩
    · rw [htaken, hup]
      by_cases hid : blob.id = id
      · have hzero := hs.fresh (hid ▸ hadmitted.fresh)
        rw [if_pos hid]
        omega
      · rw [if_neg hid]
        omega
    · intro hid
      rw [hadmitted.owner, Finmap.mem_insert, not_or] at hid
      rw [htaken, hup, if_neg (Ne.symm hid.1)]
      exact hs.fresh hid.2

theorem onceTaken_init (id : SwapID) : OnceTaken id [] .init where
  back := everywhere_start (stores_empty _)
  once := by simp [State.upstream, State.front, State.init, State.start, taken]
  fresh _ := by simp [State.upstream, State.front, State.init, State.start, taken]

end

/-! ### Runs -/

/-- A refused request is the only one with its ID: none is accepted. -/
theorem not_accepts_of_refuses {id : SwapID} {ts : History} (honce : taken id ts ≤ 1)
    {t : Transition State Label} (ht : t ∈ ts) (hrefuses : t.label.Refuses id) :
    ∀ u ∈ ts, ¬ u.label.Accepts id := by
  intro u hu haccepts
  have hrequests : ∀ l : Label, l.Refuses id ∨ l.Accepts id → l.requests id = true := by
    intro l h
    cases l with
    | swapper msg R =>
        cases msg with
        | swapRequest blob =>
            have hid : blob.id = id := h.elim And.left And.left
            simpa [Label.requests] using hid
        | _ => simp [Label.Refuses, Label.Accepts] at h
    | _ => simp [Label.Refuses, Label.Accepts] at h
  have htaken : t ∈ ts.filter fun t => t.label.requests id := by
    simp [ht, hrequests _ (.inl hrefuses)]
  have hutaken : u ∈ ts.filter fun t => t.label.requests id := by
    simp [hu, hrequests _ (.inr haccepts)]
  unfold taken at honce
  rw [List.countP_eq_length_filter] at honce
  -- the two are one step, which was answered in both ways
  obtain rfl : t = u := by
    revert htaken hutaken honce
    generalize ts.filter (fun t => t.label.requests id) = all
    intro honce htaken hutaken
    match all with
    | [] => cases htaken
    | [v] => rw [List.mem_singleton.mp htaken, List.mem_singleton.mp hutaken]
    | _ :: _ :: _ => simp at honce
  revert hrefuses haccepts
  cases t.label with
  | swapper msg R =>
      cases msg with
      | swapRequest blob =>
          rintro ⟨-, err, herr⟩ ⟨-, hok⟩
          cases herr.symm.trans hok
      | _ => exact fun h => h.elim
  | _ => exact fun h => h.elim

section

variable {P : SwapBlob → Prop} {s s' : State} {l : Label}

/-- What is handed over is in the queue of a child. -/
theorem sent_back (hs : Everywhere P s'.back) (h : Moves D s l s') :
    ∀ blob ∈ sentBlobs D l, P blob := by
  intro blob hblob
  cases h with
  | swapper h hstored =>
      obtain ⟨send, hsend, hsendBlob⟩ := mem_sentBlobs hblob
      cases send with
      | immediate msg =>
          cases msg with
          | tick => cases hsendBlob
          | request req =>
              obtain rfl : req.blob = blob := Option.some.inj hsendBlob
              exact hs.immediateIn req (List.mem_append_right _ (mem_immediateSends.mpr hsend))
      | delayed msg =>
          cases msg with
          | tick => cases hsendBlob
          | request blob' =>
              obtain rfl : blob' = blob := Option.some.inj hsendBlob
              exact (hs.delayedIn blob' (List.mem_append_right _ (mem_delayedSends.mpr hsend))).2
  | _ => cases hblob

/-- A child calls for what it has. -/
theorem not_calls_of_back {id : SwapID} (hs : Everywhere (fun blob => blob.id ≠ id) s.back)
    (h : Moves D s l s') : ¬ l.Calls id := by
  cases h with
  | immediate h hstart hreduces =>
      rintro ⟨c, hc, hid⟩
      exact (hs.immediate_requests h hstart hreduces).2 c hc hid
  | @delayed msg rest l swapMap h hstart hreduces =>
      rintro ⟨c, hc, hid⟩
      have hcarries : Carries D (fun blob => blob.id ≠ id) (fun _ => True) s.back (.delayed l)
          s.back := by
        refine ⟨fun _ _ => trivial, fun _ _ _ => trivial, ?_, fun _ _ _ _ _ _ _ _ _ => trivial⟩
        intro password R pendingSwaps hl
        cases hl
      obtain ⟨password, hne⟩ := (hs.delayed_requests h hstart hreduces hcarries).2.2 c hc
      exact hne (by simpa [Delayed.Call.id] using hid)
  | _ => exact not_false

end

/-- **Nothing is done for a swap that was refused**, before or after, in this process or a
    later one. -/
theorem refused_quiet {s : State} {ts : History} (h : Run (Moves D) .init ts s)
    (hclean : ∀ t ∈ ts, RefusesCleanly t) {id : SwapID} (hrefused : ∃ t ∈ ts, t.label.Refuses id)
    (hfills : ∀ t ∈ ts, t.label.FillsOwn id) :
    ∀ t ∈ ts, ¬ t.label.Calls id ∧ ∀ blob ∈ sentBlobs D t.label, blob.id ≠ id := by
  obtain ⟨hlast, hall⟩ := h.history (P := OnceTaken id)
    (C := fun _ t => RefusesCleanly t ∧ t.label.FillsOwn id)
    (fun hs hstep hC => hs.moves hstep hC.1 hC.2) (onceTaken_init id) (by
      rintro us t vs rfl
      exact ⟨hclean t (by simp), hfills t (by simp)⟩)
  rw [List.nil_append] at hlast
  obtain ⟨t₀, ht₀, hrefuses⟩ := hrefused
  have honce : taken id ts ≤ 1 := (Nat.le_add_left _ _).trans hlast.once
  have hnone := not_accepts_of_refuses honce ht₀ hrefuses
  intro t ht
  obtain ⟨us, vs, hts⟩ := List.append_of_mem ht
  have hstep := h.step_of_mem t ht
  have hsource := hall us t vs hts
  rw [List.nil_append] at hsource
  have hunknown : ∀ past : History, (∀ u ∈ past, u ∈ ts) → ∀ blob, Known id past blob →
      blob.id ≠ id := by
    intro past hpast blob hknown hid
    obtain ⟨u, hu, haccepts⟩ := hknown hid
    exact hnone u (hpast u hu) haccepts
  constructor
  · apply not_calls_of_back _ hstep
    exact hsource.back.mono (hunknown us fun u hu => by simp [hts, hu])
  · have htarget := (hsource.moves hstep (hclean t ht) (hfills t ht)).back
    intro blob hblob
    apply hunknown (us ++ [t]) _ blob (sent_back htarget hstep blob hblob)
    intro u hu
    rcases List.mem_append.mp hu with hu | hu
    · simp [hts, hu]
    · rwa [List.mem_singleton.mp hu]

/-- **Storing a swap is all-or-nothing exactly when** a failing `PutSwap` does not come to
    its second write, or has written what was there; on a store that works `PutSwap` makes
    both writes.  In a run whose failing `PutSwap`s leave the table of pending swaps alone,
    what is executed was accepted, and a swap that was refused is executed nowhere. -/
theorem putSwap_all_or_nothing {J : Storage.Codecs} {blob : SwapBlob}
    (hreads : ∀ data, J.blob.marshal (blob.withPassword "") = .ok data →
      ∃ record, J.blob.unmarshal data = .ok record)
    {s : State} {ts : History} (h : Run (Moves D) .init ts s)
    (hclean : ∀ t ∈ ts, RefusesCleanly t) :
    (∀ db replies, Storage.AllOrNothing J db replies blob ↔
        ∀ id swapData err, Storage.ReachesSwaps J replies blob id swapData →
          replies.swaps = .error err →
            Storage.pendingSwap J db blob.id = J.blob.unmarshal swapData) ∧
      (∀ db, Storage.putSwap J db blob =
        (Storage.putSwapWrites J db ⟨.ok (), .ok ()⟩ blob).1.map fun _ =>
          (Storage.putSwapWrites J db ⟨.ok (), .ok ()⟩ blob).2) ∧
      (∀ us t vs, ts = us ++ t :: vs → ∀ sent ∈ sentBlobs D t.label, Accepted (us ++ [t]) sent) ∧
      ∀ id, (∃ t ∈ ts, t.label.Refuses id) → (∀ t ∈ ts, t.label.FillsOwn id) →
        ∀ t ∈ ts, ¬ t.label.Calls id ∧ ∀ sent ∈ sentBlobs D t.label, sent.id ≠ id := by
  refine ⟨fun db replies => Storage.allOrNothing_iff hreads,
    fun db => Storage.putSwap_eq_writes J db blob, ?_, ?_⟩
  · intro us t vs hts sent hsent
    exact handed_accepted h hclean hts hsent
  · intro id hrefused hfills
    exact refused_quiet h hclean hrefused hfills

/-! ### A swap that is refused and executed -/

/-- The swap is posted and on its way to the swapper. -/
def postedState : State :=
  { State.init with
    swapperIn := [.swapRequest expiringBlob]
    owner := State.init.owner.insert expiringBlob.id "alice" }

/-- A store that takes the swap for one table only, or for none. -/
def failingReplies : StorageReplies :=
  { storageReplies [] with putSwap := .error (.errorf "leveldb: closed") }

theorem posted_run : ∃ ts, Run (Moves sampleConfig) .init ts postedState ∧
    ∀ t ∈ ts, RefusesCleanly t ∧ t.label.FillsOwn expiringBlob.id := by
  refine ⟨_, .cons (.http (.postSwaps expiringRequest)) <|
    .cons (@Moves.notBootloaded _ _ [] [] _ rfl (by simp [State.init, State.start])) <|
    .cons (@Moves.bootloadFailed _ _ [] [] _ rfl) <|
    .cons (@Moves.patch _ _ [] [] _ _ _ _ _ rfl expiring_admitted Finmap.notMem_empty) <|
    .cons (@Moves.writeRequest _ _ [] [] _ rfl) <|
    .cons (.accept rfl) <| .cons (.wallet rfl) <| .nil _, ?_⟩
  simp [RefusesCleanly, Label.FillsOwn]

theorem refused_sends :
    (reduce sampleConfig failingReplies (.swapRequest expiringBlob)).1 = [] :=
  rfl

theorem refused_run : ∃ s ts, Run (Moves sampleConfig) .init ts s ∧
    (∀ t ∈ ts, RefusesCleanly t) ∧ (∀ t ∈ ts, t.label.FillsOwn expiringBlob.id) ∧
    ∃ t ∈ ts, t.label.Refuses expiringBlob.id := by
  obtain ⟨ts, hposted, hts⟩ := posted_run
  refine ⟨_, _, hposted.append <| .cons (swapper_moves (R := failingReplies) (.wallet rfl)
    (.inr ⟨rfl, _, rfl⟩) refused_sends) (.nil _), ?_, ?_, ?_⟩
  · intro t ht
    rcases List.mem_append.mp ht with ht | ht
    · exact (hts t ht).1
    · obtain rfl := List.mem_singleton.mp ht
      exact fun _ _ _ _ _ _ _ => rfl
  · intro t ht
    rcases List.mem_append.mp ht with ht | ht
    · exact (hts t ht).2
    · obtain rfl := List.mem_singleton.mp ht
      trivial
  · exact ⟨_, List.mem_append_right _ List.mem_cons_self, rfl, _, rfl⟩

/-- A request that is refused and not executed. -/
theorem putSwap_all_or_nothing_refused : ∃ s ts, Run (Moves sampleConfig) .init ts s ∧
    (∃ t ∈ ts, t.label.Refuses expiringBlob.id) ∧
    (∀ db replies, Storage.AllOrNothing Storage.lastCodecs db replies Storage.lastBlob ↔
      ∀ id swapData err,
        Storage.ReachesSwaps Storage.lastCodecs replies Storage.lastBlob id swapData →
          replies.swaps = .error err →
            Storage.pendingSwap Storage.lastCodecs db Storage.lastBlob.id =
              Storage.lastCodecs.blob.unmarshal swapData) ∧
    ∀ t ∈ ts, ¬ t.label.Calls expiringBlob.id := by
  obtain ⟨s, ts, hrun, hclean, hfills, hrefused⟩ := refused_run
  have hreads : ∀ data, Storage.lastCodecs.blob.marshal (Storage.lastBlob.withPassword "") =
      .ok data → ∃ record, Storage.lastCodecs.blob.unmarshal data = .ok record := by
    intro data hdata
    obtain ⟨data', hdata', hread⟩ := Storage.lastBlob_roundTrips
    obtain rfl : data = data' := Except.ok.inj (hdata.symm.trans hdata')
    exact ⟨_, hread⟩
  obtain ⟨hwrites, -, -, hquiet⟩ := putSwap_all_or_nothing hreads hrun hclean
  exact ⟨s, ts, hrun, hrefused, hwrites, fun t ht =>
    (hquiet expiringBlob.id hrefused hfills t ht).1⟩

/-- The first write of `PutSwap` is made and the second fails.  The swap is pending, and it
    is executed after a restart. -/
theorem torn_put_executed :
    ¬ Storage.AllOrNothing Storage.lastCodecs OrderedStore.empty
        ⟨.ok (), .error (.errorf "leveldb: closed")⟩ Storage.lastBlob ∧
      ∃ s ts, Run (Moves sampleConfig) .init ts s ∧
        (∃ t ∈ ts, t.label.Refuses expiringBlob.id) ∧ ∃ t ∈ ts, t.label.Calls expiringBlob.id := by
  constructor
  · intro h
    obtain ⟨-, hfind⟩ := h (.errorf "leveldb: closed") (by decide +kernel)
    have hread := hfind Storage.lastBlob.id
    revert hread
    decide +kernel
  · obtain ⟨ts, hposted, -⟩ := posted_run
    have hresumed := hposted.append <|
      .cons (swapper_moves (R := failingReplies) (.wallet rfl) (.inl rfl) refused_sends) <|
      .cons .crash <|
      .cons (.http (.get "alice")) <|
      .cons (@Moves.notBootloaded _ _ [] [] _ rfl (by simp [State.start])) <|
      .cons (@Moves.writeBootload _ _ [] [] _ rfl) <|
      .cons (.accept rfl) <| .cons (.wallet rfl) <|
      .cons (swapper_moves (R := storageReplies [expiringBlob.withPassword ""]) (.wallet rfl)
        ⟨rfl, by simp [Lists, storageReplies, State.swapped, State.start]⟩ bootload_sends) (.nil _)
    refine ⟨_, _, hresumed.append <|
      .cons (.immediate (l := expiredReduction) rfl rfl (expired_reduces _)) (.nil _), ?_, ?_⟩
    · refine ⟨_, List.mem_append_left _ (List.mem_append_right _ List.mem_cons_self), ?_⟩
      exact ⟨rfl, _, rfl⟩
    · refine ⟨_, List.mem_append_right _ List.mem_cons_self, ?_⟩
      exact ⟨_, List.mem_cons_self, rfl⟩

end Swapperd.Daemon
