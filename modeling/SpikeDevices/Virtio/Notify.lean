import SpikeDevices.Virtio.Invariants

/-!
# The available-ring poll against its specification

`queueNotifySpec` is `queue_notify` as the specification describes it: the ring positions
`L, L+1, …` (mod 2^16) up to the driver's `avail.idx = A`, each head read from slot
`pos mod num`, handed to the front end with the sizes `get_desc_rw_size` found, until the
front end pushes back. `queueNotify_eq_spec` shows the code's loop is that fold, with
`A - L` positions, for a handler that leaves the queue registers alone, and
`queueNotifySpec_lastAvail` says where it stops: at `A`, or at the position the front end
pushed back, which the next notification starts from.
-/

namespace SpikeDevices.Virtio

open GuestMemory VirtioDevice

/-- The address of the available-ring slot of position `pos`: `avail_addr + 4 + 2 (pos mod num)`. -/
def availSlotAddr (qs : QueueState) (pos : U16) : U64 :=
  qs.availAddr + 4 + BitVec.ofNat 64 (2 * (pos.toNat % qs.num.toNat))

/-- With a power-of-two ring, the code's masked slot is the slot of `last_avail_idx`. -/
theorem availEntryAddr_eq_availSlotAddr {qs : QueueState} (hnum : qs.num.toNat.isPowerOfTwo) :
    availEntryAddr qs = availSlotAddr qs qs.lastAvailIdx := by
  have hidx := qs.lastAvailIdx.isLt
  have hmod := Nat.mod_le qs.lastAvailIdx.toNat qs.num.toNat
  have hslot : (qs.lastAvailIdx.setWidth 32 &&& (qs.num - 1)).toNat =
      qs.lastAvailIdx.toNat % qs.num.toNat := by
    rw [and_num_sub_one_toNat hnum, BitVec.toNat_setWidth,
      Nat.mod_eq_of_lt (show qs.lastAvailIdx.toNat < 2 ^ 32 by omega)]
  simp only [availEntryAddr, availSlotAddr]
  congr 1
  apply BitVec.eq_of_toNat_eq
  rw [BitVec.toNat_setWidth, BitVec.toNat_mul, hslot, BitVec.toNat_ofNat,
    show (2 : U32).toNat = 2 from rfl]
  omega

section Spec

variable {F : Type} (fuel : Nat) (recv : DeviceRecvFunc F) (q : Fin maxQueue)

/-- The head the driver put at the position `last_avail_idx` of queue `q`. -/
def headAt (m : Machine F) : U16 :=
  m.mem.load16 (availSlotAddr (m.core.queue q) (m.core.queue q).lastAvailIdx)

/-- The poll of `n` positions as the specification states it. -/
def queueNotifySpec : Nat → Machine F → Outcome (Machine F)
  | 0, m => .done m
  | n + 1, m => do
    match ← getDescRwSize fuel m.mem (m.core.queue q) (headAt q m) with
    | none => queueNotifySpec n (incLastAvail m q)
    | some (readSize, writeSize) =>
      let (ret, m') ← recv m q (headAt q m) readSize writeSize
      if ret < 0 then .done m' else queueNotifySpec n (incLastAvail m' q)

/-- A handler that leaves the queue registers alone. -/
def KeepsQueues : Prop :=
  ∀ m q d rs ws r m', recv m q d rs ws = .done (r, m') → m'.core.queue = m.core.queue

/-- The front end pushed back the head at `mk`'s position: `get_desc_rw_size` accepted its
chain and the handler returned a negative value, leaving `m'`. -/
def PushedBack (mk m' : Machine F) : Prop :=
  ∃ rs ws r, getDescRwSize fuel mk.mem (mk.core.queue q) (headAt q mk) = .done (some (rs, ws)) ∧
    recv mk q (headAt q mk) rs ws = .done (r, m') ∧ r < 0

/-- A handler that leaves `avail.idx` of queue `q` alone, as one that never writes the
available ring does. -/
def KeepsAvailIdx : Prop :=
  ∀ m d rs ws r m', recv m q d rs ws = .done (r, m') →
    m'.mem.load16 ((m.core.queue q).availAddr + 2) = m.mem.load16 ((m.core.queue q).availAddr + 2)

variable {fuel recv q}

theorem incLastAvail_queue_self (m : Machine F) :
    ((incLastAvail m q).core.queue q) =
      { m.core.queue q with lastAvailIdx := (m.core.queue q).lastAvailIdx + 1 } := by
  simp [setLastAvail]

/-- The loop with at least `n` iterations of fuel left, `n` positions short of `A`, is the
fold over those `n` positions. -/
theorem notifyLoop_eq_spec (hrecv : KeepsQueues recv) (availIdx : U16) :
    ∀ n k (m : Machine F), n ≤ k → (availIdx - (m.core.queue q).lastAvailIdx).toNat = n →
      (m.core.queue q).num.toNat.isPowerOfTwo →
      notifyLoop fuel recv q availIdx k m = queueNotifySpec fuel recv q n m := by
  intro n
  induction n with
  | zero =>
    intro k m _ hn _
    have : (m.core.queue q).lastAvailIdx = availIdx := by bv_omega
    cases k <;> simp [notifyLoop, queueNotifySpec, this]
  | succ n ih =>
    intro k m hk hn hnum
    obtain ⟨k, rfl⟩ : ∃ k', k = k' + 1 := ⟨k - 1, by omega⟩
    have hne : (m.core.queue q).lastAvailIdx ≠ availIdx := by intro h; rw [h] at hn; simp at hn
    -- one position further the loop is again `n` short
    have step : ∀ m' : Machine F, m'.core.queue q = m.core.queue q →
        notifyLoop fuel recv q availIdx k (incLastAvail m' q) =
          queueNotifySpec fuel recv q n (incLastAvail m' q) := by
      intro m' e
      refine ih k _ (by omega) ?_ ?_
      · rw [incLastAvail_queue_self, e]; bv_omega
      · rw [incLastAvail_queue_self, e]; exact hnum
    rw [notifyLoop_succ_eq, if_neg hne, queueNotifySpec, headAt,
      ← availEntryAddr_eq_availSlotAddr hnum]
    refine Outcome.bind_congr fun sizes _ => ?_
    rcases sizes with _ | ⟨rs, ws⟩
    · exact step m rfl
    · refine Outcome.bind_congr fun ⟨r, m'⟩ hr => ?_
      dsimp only
      split
      · rfl
      · exact step m' (congrFun (hrecv _ _ _ _ _ _ _ hr) q)

/-- Under `manual_recv = false` and enough fuel, `queue_notify` is the specified poll of the
`A - L` positions between `last_avail_idx = L` and the driver's `avail.idx = A`. -/
theorem queueNotify_eq_queueNotifySpec (hrecv : KeepsQueues recv) (hfuel : 2 ^ 16 ≤ fuel)
    {m : Machine F} (hman : (m.core.queue q).manualRecv = false)
    (hnum : (m.core.queue q).num.toNat.isPowerOfTwo) :
    queueNotify fuel recv q m = queueNotifySpec fuel recv q
      (m.mem.load16 ((m.core.queue q).availAddr + 2) - (m.core.queue q).lastAvailIdx).toNat m := by
  unfold queueNotify
  rw [if_neg (by simp [hman])]
  exact notifyLoop_eq_spec hrecv _ _ _ _ (by bv_omega) rfl hnum

/-- Where the specified poll stops: `k ≤ n` positions further on, and short of `n` only
because the front end returned a negative value for the head at the stopping position. -/
theorem queueNotifySpec_lastAvail (hrecv : KeepsQueues recv) :
    ∀ n (m m' : Machine F), queueNotifySpec fuel recv q n m = .done m' →
      ∃ k ≤ n, (m'.core.queue q).lastAvailIdx = (m.core.queue q).lastAvailIdx + BitVec.ofNat 16 k ∧
        (k < n → ∃ mk, (mk.core.queue q).lastAvailIdx = (m'.core.queue q).lastAvailIdx ∧
          PushedBack fuel recv q mk m') := by
  intro n
  induction n with
  | zero =>
    intro m m' h
    cases h
    exact ⟨0, Nat.le_refl 0, by simp, fun h => absurd h (Nat.lt_irrefl 0)⟩
  | succ n ih =>
    intro m m' h
    -- a position handled without push-back: the rest is `ih` one position further on
    have next : ∀ m1 : Machine F, m1.core.queue q = m.core.queue q →
        queueNotifySpec fuel recv q n (incLastAvail m1 q) = .done m' →
        ∃ k ≤ n + 1, (m'.core.queue q).lastAvailIdx =
          (m.core.queue q).lastAvailIdx + BitVec.ofNat 16 k ∧
          (k < n + 1 → ∃ mk, (mk.core.queue q).lastAvailIdx = (m'.core.queue q).lastAvailIdx ∧
            PushedBack fuel recv q mk m') := by
      intro m1 e h
      obtain ⟨k, hk, hlast, hstop⟩ := ih _ _ h
      refine ⟨k + 1, by omega, ?_, fun hlt => hstop (by omega)⟩
      rw [hlast, incLastAvail_queue_self, e]
      bv_omega
    obtain ⟨sizes, hs, h⟩ := Outcome.bind_eq_done.mp h
    rcases sizes with _ | ⟨rs, ws⟩
    · exact next m rfl h
    · obtain ⟨⟨r, m1⟩, hr, h⟩ := Outcome.bind_eq_done.mp h
      have e := congrFun (hrecv _ _ _ _ _ _ _ hr) q
      dsimp only at h
      split at h
      · cases h
        exact ⟨0, by omega, by simp [e], fun _ => ⟨m, by rw [e], rs, ws, r, hs, hr, ‹_›⟩⟩
      · exact next m1 e h

/-- A poll of queue `q` by a handler that leaves the queue registers and `avail.idx` alone
moves only `last_avail_idx` of `q`, and the driver's `avail.idx` is still there afterwards. -/
theorem queueNotify_window (hrecv : KeepsQueues recv) (havail : KeepsAvailIdx recv q)
    {m m' : Machine F} (h : queueNotify fuel recv q m = .done m') :
    m'.core.queue q = { m.core.queue q with lastAvailIdx := (m'.core.queue q).lastAvailIdx } ∧
      m'.mem.load16 ((m.core.queue q).availAddr + 2) = m.mem.load16 ((m.core.queue q).availAddr + 2) := by
  refine queueNotify_rel fuel recv q (fun m m' => m'.core.queue q =
      { m.core.queue q with lastAvailIdx := (m'.core.queue q).lastAvailIdx } ∧
      m'.mem.load16 ((m.core.queue q).availAddr + 2) = m.mem.load16 ((m.core.queue q).availAddr + 2))
    (fun _ => ⟨rfl, rfl⟩) ?_ (fun m _ _ _ _ _ hr => ⟨by rw [congrFun (hrecv _ _ _ _ _ _ _ hr) q], havail _ _ _ _ _ _ hr⟩)
    (fun m => ⟨by rw [incLastAvail_queue_self], rfl⟩) h
  rintro a b c ⟨hb, hmb⟩ ⟨hc, hmc⟩
  have hab : (b.core.queue q).availAddr = (a.core.queue q).availAddr := by rw [hb]
  rw [hab] at hmc
  exact ⟨by rw [hc, hb], hmc.trans hmb⟩

/-- A poll of queue `q` leaves every other queue's registers alone. -/
theorem queueNotify_queue_of_ne (hrecv : KeepsQueues recv) {m m' : Machine F}
    (h : queueNotify fuel recv q m = .done m') {j : Fin maxQueue} (hj : j ≠ q) :
    m'.core.queue j = m.core.queue j :=
  queueNotify_rel fuel recv q (fun m m' => m'.core.queue j = m.core.queue j) (fun _ => rfl)
    (fun _ _ _ hab hbc => hbc.trans hab) (fun _ _ _ _ _ _ hr => congrFun (hrecv _ _ _ _ _ _ _ hr) j)
    (fun _ => setQueue_queue_of_ne _ _ hj) h

/-- Over one operation `last_avail_idx` of a queue moves forward within the positions the
driver has made available, or goes back to 0 through a `STATUS` write of 0. -/
theorem step_lastAvail (hrecv : KeepsQueues recv) (hfuel : 2 ^ 16 ≤ fuel) {op : Op}
    {m m' : Machine F} (hinv : QueueInvariant m.core) (h : step fuel recv op m = .done m')
    (j : Fin maxQueue) :
    (op = .mmioWrite virtioMmioStatus 0 2 ∧ (m'.core.queue j).lastAvailIdx = 0) ∨
    ∃ k ≤ (m.mem.load16 ((m.core.queue j).availAddr + 2) - (m.core.queue j).lastAvailIdx).toNat,
      (m'.core.queue j).lastAvailIdx = (m.core.queue j).lastAvailIdx + BitVec.ofNat 16 k := by
  -- the operations that leave the index where it was
  have same : (m'.core.queue j).lastAvailIdx = (m.core.queue j).lastAvailIdx →
      ∃ k ≤ (m.mem.load16 ((m.core.queue j).availAddr + 2) - (m.core.queue j).lastAvailIdx).toNat,
        (m'.core.queue j).lastAvailIdx = (m.core.queue j).lastAvailIdx + BitVec.ofNat 16 k :=
    fun e => ⟨0, Nat.zero_le _, by rw [e]; simp⟩
  rcases step_core fuel recv h with e | ⟨cs, e⟩ | ⟨q', hq⟩ | ⟨o, val, rfl, hw⟩ | e | ⟨-, e⟩
  · exact .inr <| same (by rw [e])
  · exact .inr <| same (by rw [e])
  · by_cases hj : j = q'
    · subst hj
      cases hman : (m.core.queue j).manualRecv
      · rw [queueNotify_eq_queueNotifySpec hrecv hfuel hman (hinv.num_isPowerOfTwo j)] at hq
        obtain ⟨k, hk, hlast, -⟩ := queueNotifySpec_lastAvail hrecv _ _ _ hq
        exact .inr ⟨k, hk, hlast⟩
      · simp only [queueNotify, hman, if_true, Outcome.done.injEq] at hq
        exact .inr <| same (by rw [hq])
    · exact .inr <| same (by rw [queueNotify_queue_of_ne hrecv hq hj])
  · rcases writeRegister_cases hw with e | e | ⟨-, e⟩ | ⟨f, hm, hf⟩ | ⟨ho, e⟩ | ⟨-, e⟩
    · exact .inr <| same (by rw [e])
    · exact .inr <| same (by rw [e])
    · exact .inr <| same (by rw [e])
    · obtain ⟨i, -, e⟩ := (modifySelectedQueue_eq_done _).mp hm
      refine .inr <| same ?_
      rw [e, setQueue_queue]
      split
      · subst j; exact (hf _).1
      · rfl
    · by_cases hv : val = 0
      · subst hv ho
        exact .inl ⟨rfl, by rw [e]; rfl⟩
      · refine .inr <| same ?_
        rw [e]; unfold Virtio.statusWrite; rw [if_neg hv]
    · exact .inr <| same (by rw [e, interruptAck_queue])
  · exact .inr <| same (by rw [e]; rfl)
  · exact .inr <| same (by rw [e]; rfl)

/-- A run of `j + 1` notifies of `q`, with no other operation between them, by a handler that
leaves the queue registers and `avail.idx` alone, consumes the positions `L, L+1, …, L+k-1`
of the window `[L, A)`, each once and in order, and stops short of `A` only at a head the
last notify pushed back. -/
theorem run_notifies_consume (hrecv : KeepsQueues recv) (havail : KeepsAvailIdx recv q)
    (hfuel : 2 ^ 16 ≤ fuel) :
    ∀ j (m m' : Machine F), (m.core.queue q).manualRecv = false →
      (m.core.queue q).num.toNat.isPowerOfTwo →
      run fuel recv (List.replicate (j + 1) (.notify q)) m = .done m' →
      ∃ k ≤ (m.mem.load16 ((m.core.queue q).availAddr + 2) - (m.core.queue q).lastAvailIdx).toNat,
        (m'.core.queue q).lastAvailIdx = (m.core.queue q).lastAvailIdx + BitVec.ofNat 16 k ∧
        (k < (m.mem.load16 ((m.core.queue q).availAddr + 2) - (m.core.queue q).lastAvailIdx).toNat →
          ∃ mk, (mk.core.queue q).lastAvailIdx = (m'.core.queue q).lastAvailIdx ∧
            PushedBack fuel recv q mk m') := by
  intro j
  induction j with
  | zero =>
    intro m m' hman hnum h
    obtain ⟨m1, h1, h⟩ := Outcome.bind_eq_done.mp h
    cases h
    rw [step, queueNotify_eq_queueNotifySpec hrecv hfuel hman hnum] at h1
    exact queueNotifySpec_lastAvail hrecv _ _ _ h1
  | succ j ih =>
    intro m m' hman hnum h
    obtain ⟨m1, h1, h⟩ := Outcome.bind_eq_done.mp h
    obtain ⟨hq, havail1⟩ := queueNotify_window hrecv havail h1
    rw [step, queueNotify_eq_queueNotifySpec hrecv hfuel hman hnum] at h1
    obtain ⟨k1, hk1, hl1, -⟩ := queueNotifySpec_lastAvail hrecv _ _ _ h1
    -- the second part of the run sees the same `avail.idx` and a window `k1` shorter
    have hw : (m1.mem.load16 ((m1.core.queue q).availAddr + 2) - (m1.core.queue q).lastAvailIdx).toNat =
        (m.mem.load16 ((m.core.queue q).availAddr + 2) - (m.core.queue q).lastAvailIdx).toNat - k1 := by
      rw [hq, havail1, hl1]
      bv_omega
    obtain ⟨k2, hk2, hl2, hstop⟩ := ih m1 m' (by rw [hq]; exact hman) (by rw [hq]; exact hnum) h
    rw [hw] at hk2 hstop
    refine ⟨k1 + k2, by omega, ?_, fun hlt => hstop (by omega)⟩
    rw [hl2, hl1, BitVec.ofNat_add, BitVec.add_assoc]

/-- `queue_notify` on a queue with `manual_recv = false`, a power-of-two `num` and a handler
that leaves the queue registers alone is the specified poll of the positions `L, L+1, …` up
to the driver's `avail.idx = A`; it returns with `last_avail_idx = A`, or at the position
whose head the front end pushed back, where the next notification starts again; and over
any operation of any run `last_avail_idx` only advances within the available positions or
is reset to 0. Hence, when the handler also leaves `avail.idx` alone, a run of notifies
consumes each position of `[L, A)` at most once, in ring order, and all of them unless the
last notify pushed a head back. -/
theorem queueNotify_spec (hrecv : KeepsQueues recv) (hfuel : 2 ^ 16 ≤ fuel) {m : Machine F}
    (hman : (m.core.queue q).manualRecv = false) (hnum : (m.core.queue q).num.toNat.isPowerOfTwo) :
    queueNotify fuel recv q m = queueNotifySpec fuel recv q
        (m.mem.load16 ((m.core.queue q).availAddr + 2) - (m.core.queue q).lastAvailIdx).toNat m ∧
    (∀ m', queueNotify fuel recv q m = .done m' →
      ∃ k ≤ (m.mem.load16 ((m.core.queue q).availAddr + 2) - (m.core.queue q).lastAvailIdx).toNat,
        (m'.core.queue q).lastAvailIdx = (m.core.queue q).lastAvailIdx + BitVec.ofNat 16 k ∧
        (k < (m.mem.load16 ((m.core.queue q).availAddr + 2) - (m.core.queue q).lastAvailIdx).toNat →
          ∃ mk, (mk.core.queue q).lastAvailIdx = (m'.core.queue q).lastAvailIdx ∧
            PushedBack fuel recv q mk m')) ∧
    (∀ op (m₁ m₂ : Machine F) j, QueueInvariant m₁.core → step fuel recv op m₁ = .done m₂ →
      (op = .mmioWrite virtioMmioStatus 0 2 ∧ (m₂.core.queue j).lastAvailIdx = 0) ∨
      ∃ k ≤ (m₁.mem.load16 ((m₁.core.queue j).availAddr + 2) - (m₁.core.queue j).lastAvailIdx).toNat,
        (m₂.core.queue j).lastAvailIdx = (m₁.core.queue j).lastAvailIdx + BitVec.ofNat 16 k) ∧
    (KeepsAvailIdx recv q → ∀ j m', run fuel recv (List.replicate (j + 1) (.notify q)) m = .done m' →
      ∃ k ≤ (m.mem.load16 ((m.core.queue q).availAddr + 2) - (m.core.queue q).lastAvailIdx).toNat,
        (m'.core.queue q).lastAvailIdx = (m.core.queue q).lastAvailIdx + BitVec.ofNat 16 k ∧
        (k < (m.mem.load16 ((m.core.queue q).availAddr + 2) - (m.core.queue q).lastAvailIdx).toNat →
          ∃ mk, (mk.core.queue q).lastAvailIdx = (m'.core.queue q).lastAvailIdx ∧
            PushedBack fuel recv q mk m')) := by
  have heq := queueNotify_eq_queueNotifySpec hrecv hfuel hman hnum
  exact ⟨heq, fun m' h => queueNotifySpec_lastAvail hrecv _ _ _ (heq ▸ h),
    fun _ _ _ j hinv h => step_lastAvail hrecv hfuel hinv h j,
    fun havail j m' h => run_notifies_consume hrecv havail hfuel j m m' hman hnum h⟩

end Spec

/-- A handler that counts the heads it is called for and pushes back the second call. -/
def pushBackSecond : DeviceRecvFunc Nat := fun m _ _ _ _ =>
  if m.front = 1 then .done (-1, { m with front := 2 }) else .done (0, { m with front := m.front + 1 })

/-- A device fresh from `virtio_init` whose driver has posted three heads: `avail.idx = 3`
at address 2, where a reset leaves the available ring, and head 0 in every slot. -/
def threeHeadsMachine : Machine Nat := ⟨virtioInit 2 8, 0, fun a => if a = 2 then 3 else 0⟩

/-- The first notify consumes position 0 and stops at position 1, which the handler pushed
back; the second consumes positions 1 and 2. -/
theorem queueNotify_spec_pushBack :
    KeepsAvailIdx pushBackSecond 0 ∧
    (queueNotify (2 ^ 16) pushBackSecond 0 threeHeadsMachine = queueNotifySpec (2 ^ 16) pushBackSecond 0
        (threeHeadsMachine.mem.load16 ((threeHeadsMachine.core.queue 0).availAddr + 2) -
          (threeHeadsMachine.core.queue 0).lastAvailIdx).toNat threeHeadsMachine ∧
    (∀ m', queueNotify (2 ^ 16) pushBackSecond 0 threeHeadsMachine = .done m' →
      ∃ k ≤ (threeHeadsMachine.mem.load16 ((threeHeadsMachine.core.queue 0).availAddr + 2) -
          (threeHeadsMachine.core.queue 0).lastAvailIdx).toNat,
        (m'.core.queue 0).lastAvailIdx = (threeHeadsMachine.core.queue 0).lastAvailIdx + BitVec.ofNat 16 k ∧
        (k < (threeHeadsMachine.mem.load16 ((threeHeadsMachine.core.queue 0).availAddr + 2) -
            (threeHeadsMachine.core.queue 0).lastAvailIdx).toNat →
          ∃ mk, (mk.core.queue 0).lastAvailIdx = (m'.core.queue 0).lastAvailIdx ∧
            PushedBack (2 ^ 16) pushBackSecond 0 mk m')) ∧
    (∀ op (m₁ m₂ : Machine Nat) j, QueueInvariant m₁.core →
      step (2 ^ 16) pushBackSecond op m₁ = .done m₂ →
      (op = .mmioWrite virtioMmioStatus 0 2 ∧ (m₂.core.queue j).lastAvailIdx = 0) ∨
      ∃ k ≤ (m₁.mem.load16 ((m₁.core.queue j).availAddr + 2) - (m₁.core.queue j).lastAvailIdx).toNat,
        (m₂.core.queue j).lastAvailIdx = (m₁.core.queue j).lastAvailIdx + BitVec.ofNat 16 k) ∧
    (KeepsAvailIdx pushBackSecond 0 → ∀ j m',
      run (2 ^ 16) pushBackSecond (List.replicate (j + 1) (.notify 0)) threeHeadsMachine = .done m' →
      ∃ k ≤ (threeHeadsMachine.mem.load16 ((threeHeadsMachine.core.queue 0).availAddr + 2) -
          (threeHeadsMachine.core.queue 0).lastAvailIdx).toNat,
        (m'.core.queue 0).lastAvailIdx = (threeHeadsMachine.core.queue 0).lastAvailIdx + BitVec.ofNat 16 k ∧
        (k < (threeHeadsMachine.mem.load16 ((threeHeadsMachine.core.queue 0).availAddr + 2) -
            (threeHeadsMachine.core.queue 0).lastAvailIdx).toNat →
          ∃ mk, (mk.core.queue 0).lastAvailIdx = (m'.core.queue 0).lastAvailIdx ∧
            PushedBack (2 ^ 16) pushBackSecond 0 mk m'))) ∧
    (match run (2 ^ 16) pushBackSecond [.notify 0] threeHeadsMachine with
      | .done m => some ((m.core.queue 0).lastAvailIdx, m.front) | _ => none) = some (1, 2) ∧
    (match run (2 ^ 16) pushBackSecond [.notify 0, .notify 0] threeHeadsMachine with
      | .done m => some ((m.core.queue 0).lastAvailIdx, m.front) | _ => none) = some (3, 4) :=
  ⟨fun m _ _ _ _ _ h => by unfold pushBackSecond at h; split at h <;> cases h <;> rfl,
    queueNotify_spec (fun m _ _ _ _ _ _ h => by unfold pushBackSecond at h; split at h <;> cases h <;> rfl)
      (Nat.le_refl _) rfl ⟨4, rfl⟩, by decide, by decide⟩

end SpikeDevices.Virtio
