import SpikeDevices.Virtio.Device

/-!
# Lemmas about the transport

What the transport's state updates change and leave alone, and `notifyLoop_rel`, the
induction principle of the available-ring poll: a preorder that each call of the front
end's handler and each `last_avail_idx++` respect holds between the states before and
after a whole `queue_notify`.
-/

namespace SpikeDevices.Virtio

open GuestMemory VirtioDevice

/-! ## Field lemmas -/

namespace VirtioDevice

variable (s : VirtioDevice)

@[simp] theorem setIrq_irqLevel (b : Bool) : (s.setIrq b).irqLevel = b := rfl
@[simp] theorem setIrq_intStatus (b : Bool) : (s.setIrq b).intStatus = s.intStatus := rfl
@[simp] theorem setIrq_queue (b : Bool) : (s.setIrq b).queue = s.queue := rfl
@[simp] theorem setIrq_queueSel (b : Bool) : (s.setIrq b).queueSel = s.queueSel := rfl

@[simp] theorem raiseUsed_irqLevel : s.raiseUsed.irqLevel = true := rfl
@[simp] theorem raiseUsed_intStatus : s.raiseUsed.intStatus = s.intStatus ||| 1 := rfl
@[simp] theorem raiseUsed_queue : s.raiseUsed.queue = s.queue := rfl
@[simp] theorem raiseUsed_queueSel : s.raiseUsed.queueSel = s.queueSel := rfl

@[simp] theorem setQueue_irqLevel (i : Fin maxQueue) (qs : QueueState) :
    (s.setQueue i qs).irqLevel = s.irqLevel := rfl
@[simp] theorem setQueue_intStatus (i : Fin maxQueue) (qs : QueueState) :
    (s.setQueue i qs).intStatus = s.intStatus := rfl
@[simp] theorem setQueue_queueSel (i : Fin maxQueue) (qs : QueueState) :
    (s.setQueue i qs).queueSel = s.queueSel := rfl

theorem setQueue_queue (i j : Fin maxQueue) (qs : QueueState) :
    (s.setQueue i qs).queue j = if j = i then qs else s.queue j := rfl

/-- A property of every queue survives replacing one queue by another that has it. -/
theorem setQueue_queue_of_forall {P : QueueState → Prop} {i : Fin maxQueue} {qs : QueueState}
    (hqs : P qs) (hall : ∀ j, P (s.queue j)) (j : Fin maxQueue) : P ((s.setQueue i qs).queue j) := by
  rw [setQueue_queue]
  split
  · exact hqs
  · exact hall j

theorem selectedQueue_eq_done {i : Fin maxQueue} :
    s.selectedQueue = .done i ↔ s.queueSel.toNat = i.val := by
  unfold selectedQueue
  split
  · simp only [Outcome.done.injEq]
    constructor
    · rintro rfl; rfl
    · intro h; exact Fin.ext h
  · simp only [reduceCtorEq, false_iff]
    omega

/-- An update of the selected queue succeeds exactly when `queue_sel` is in the array. -/
theorem modifySelectedQueue_eq_done {f : QueueState → QueueState} {s' : VirtioDevice} :
    s.modifySelectedQueue f = .done s' ↔
      ∃ i : Fin maxQueue, s.queueSel.toNat = i.val ∧ s' = s.setQueue i (f (s.queue i)) := by
  simp only [modifySelectedQueue, Outcome.bind_eq_done, selectedQueue_eq_done, Outcome.pure_def,
    Outcome.done.injEq]
  exact ⟨fun ⟨i, h, e⟩ => ⟨i, h, e.symm⟩, fun ⟨i, h, e⟩ => ⟨i, h, e.symm⟩⟩

end VirtioDevice

@[simp] theorem virtioReset_irqLevel (s : VirtioDevice) : (virtioReset s).irqLevel = s.irqLevel := rfl
@[simp] theorem virtioReset_intStatus (s : VirtioDevice) : (virtioReset s).intStatus = 0 := rfl
@[simp] theorem virtioReset_queueSel (s : VirtioDevice) : (virtioReset s).queueSel = 0 := rfl

theorem virtioReset_queue (s : VirtioDevice) (i : Fin maxQueue) :
    (virtioReset s).queue i =
      { s.queue i with ready := 0, num := maxQueueNum, descAddr := 0, availAddr := 0,
                       usedAddr := 0, lastAvailIdx := 0 } := rfl

@[simp] theorem interruptAck_queue (s : VirtioDevice) (val : U32) :
    (interruptAck s val).queue = s.queue := by
  dsimp only [interruptAck]; split <;> rfl
@[simp] theorem interruptAck_queueSel (s : VirtioDevice) (val : U32) :
    (interruptAck s val).queueSel = s.queueSel := by
  dsimp only [interruptAck]; split <;> rfl
@[simp] theorem interruptAck_intStatus (s : VirtioDevice) (val : U32) :
    (interruptAck s val).intStatus = s.intStatus &&& ~~~val := by
  dsimp only [interruptAck]; split <;> rfl

@[simp] theorem incLastAvail_core_irqLevel {F : Type} (m : Machine F) (q : Fin maxQueue) :
    (incLastAvail m q).core.irqLevel = m.core.irqLevel := rfl
@[simp] theorem incLastAvail_core_intStatus {F : Type} (m : Machine F) (q : Fin maxQueue) :
    (incLastAvail m q).core.intStatus = m.core.intStatus := rfl
@[simp] theorem incLastAvail_core_queueSel {F : Type} (m : Machine F) (q : Fin maxQueue) :
    (incLastAvail m q).core.queueSel = m.core.queueSel := rfl
@[simp] theorem incLastAvail_mem {F : Type} (m : Machine F) (q : Fin maxQueue) :
    (incLastAvail m q).mem = m.mem := rfl
@[simp] theorem incLastAvail_front {F : Type} (m : Machine F) (q : Fin maxQueue) :
    (incLastAvail m q).front = m.front := rfl

namespace VirtioDevice

/-- `s->queue[q].last_avail_idx = v`. -/
def setLastAvail (s : VirtioDevice) (q : Fin maxQueue) (v : U16) : VirtioDevice :=
  s.setQueue q { s.queue q with lastAvailIdx := v }

/-- The device with the used interrupt raised when `raised` holds. -/
def raiseUsedIf (s : VirtioDevice) (raised : Bool) : VirtioDevice := if raised then s.raiseUsed else s

theorem setLastAvail_self (s : VirtioDevice) (q : Fin maxQueue) :
    s.setLastAvail q (s.queue q).lastAvailIdx = s := by
  simp only [setLastAvail, setQueue]
  congr
  funext j
  split <;> simp_all

theorem setLastAvail_setLastAvail (s : VirtioDevice) (q : Fin maxQueue) (v w : U16) :
    (s.setLastAvail q v).setLastAvail q w = s.setLastAvail q w := by
  simp only [setLastAvail, setQueue]
  congr
  funext j
  split <;> simp

theorem raiseUsedIf_setLastAvail (s : VirtioDevice) (raised : Bool) (q : Fin maxQueue) (v : U16) :
    (s.raiseUsedIf raised).setLastAvail q v = (s.setLastAvail q v).raiseUsedIf raised := by
  cases raised <;> rfl

theorem raiseUsedIf_raiseUsedIf (s : VirtioDevice) (b c : Bool) :
    (s.raiseUsedIf b).raiseUsedIf c = s.raiseUsedIf (b || c) := by
  cases b <;> cases c <;> simp [raiseUsedIf, raiseUsed, setIrq, BitVec.or_assoc]

end VirtioDevice

@[simp] theorem incLastAvail_core {F : Type} (m : Machine F) (q : Fin maxQueue) :
    (incLastAvail m q).core = m.core.setLastAvail q ((m.core.queue q).lastAvailIdx + 1) := rfl

/-! ## The poll as a whole -/

section Notify

variable {F : Type} (fuel : Nat) (recv : DeviceRecvFunc F) (queueIdx : Fin maxQueue)
  (R : Machine F → Machine F → Prop)

/-- Each iteration of the poll either stops after the handler pushed back, or goes on from
the incremented index after the handler ran or after `get_desc_rw_size` rejected the head. -/
theorem notifyLoop_succ_eq (availIdx : U16) (n : Nat) (m : Machine F) :
    notifyLoop fuel recv queueIdx availIdx (n + 1) m =
      if (m.core.queue queueIdx).lastAvailIdx = availIdx then .done m
      else
        getDescRwSize fuel m.mem (m.core.queue queueIdx)
            (m.mem.load16 (availEntryAddr (m.core.queue queueIdx))) >>= fun sizes =>
          match sizes with
          | none => notifyLoop fuel recv queueIdx availIdx n (incLastAvail m queueIdx)
          | some (readSize, writeSize) =>
            recv m queueIdx (m.mem.load16 (availEntryAddr (m.core.queue queueIdx)))
                readSize writeSize >>= fun res =>
              if res.1 < 0 then .done res.2
              else notifyLoop fuel recv queueIdx availIdx n (incLastAvail res.2 queueIdx) := by
  rfl

/-- A preorder that every handler call and every index increment respect holds across the
whole loop. -/
theorem notifyLoop_rel (hrefl : ∀ m, R m m) (htrans : ∀ a b c, R a b → R b c → R a c)
    (hrecv : ∀ m d rs ws r m', recv m queueIdx d rs ws = .done (r, m') → R m m')
    (hinc : ∀ m, R m (incLastAvail m queueIdx)) (availIdx : U16) :
    ∀ n m m', notifyLoop fuel recv queueIdx availIdx n m = .done m' → R m m' := by
  intro n
  induction n with
  | zero =>
    intro m m' h
    simp only [notifyLoop] at h
    split at h
    · cases h; exact hrefl m
    · cases h
  | succ n ih =>
    intro m m' h
    rw [notifyLoop_succ_eq] at h
    split at h
    · cases h; exact hrefl m
    · obtain ⟨sizes, -, h⟩ := Outcome.bind_eq_done.mp h
      cases sizes with
      | none => exact htrans _ _ _ (hinc m) (ih _ _ h)
      | some sizes =>
        obtain ⟨⟨r, m1⟩, hr, h⟩ := Outcome.bind_eq_done.mp h
        have h1 := hrecv _ _ _ _ _ _ hr
        split at h
        · cases h; exact h1
        · exact htrans _ _ _ h1 (htrans _ _ _ (hinc m1) (ih _ _ h))

/-- The same for a whole `queue_notify`. -/
theorem queueNotify_rel (hrefl : ∀ m, R m m) (htrans : ∀ a b c, R a b → R b c → R a c)
    (hrecv : ∀ m d rs ws r m', recv m queueIdx d rs ws = .done (r, m') → R m m')
    (hinc : ∀ m, R m (incLastAvail m queueIdx)) {m m' : Machine F}
    (h : queueNotify fuel recv queueIdx m = .done m') : R m m' := by
  dsimp only [queueNotify] at h
  split at h
  · cases h; exact hrefl m
  · exact notifyLoop_rel fuel recv queueIdx R hrefl htrans hrecv hinc _ _ _ _ h

/-- A handler that leaves the transport alone or raises the used interrupt, as the block
device's does. -/
def RaisesUsedOnly (recv : DeviceRecvFunc F) : Prop :=
  ∀ m q d rs ws r m', recv m q d rs ws = .done (r, m') → ∃ raised, m'.core = m.core.raiseUsedIf raised

/-- What `queue_notify` on `q` can do to the transport when its handler raises the used
interrupt at most: move `last_avail_idx` of `q` and raise the used interrupt. -/
def NotifyFrame (q : Fin maxQueue) (s s' : VirtioDevice) : Prop :=
  ∃ v raised, s' = (s.setLastAvail q v).raiseUsedIf raised

theorem queueNotify_frame (hrecv : RaisesUsedOnly recv) {m m' : Machine F}
    (h : queueNotify fuel recv queueIdx m = .done m') : NotifyFrame queueIdx m.core m'.core := by
  refine queueNotify_rel fuel recv queueIdx (fun m m' => NotifyFrame queueIdx m.core m'.core)
    (fun m => ⟨_, false, (setLastAvail_self m.core queueIdx).symm⟩) ?_ ?_ ?_ h
  · rintro a b c ⟨v, r, hb⟩ ⟨w, r', hc⟩
    refine ⟨w, r || r', ?_⟩
    rw [hc, hb, raiseUsedIf_setLastAvail, setLastAvail_setLastAvail, raiseUsedIf_raiseUsedIf]
  · intro m d rs ws r m' hr
    obtain ⟨raised, e⟩ := hrecv m queueIdx d rs ws r m' hr
    exact ⟨_, raised, by rw [e, setLastAvail_self]⟩
  · intro m
    exact ⟨_, false, rfl⟩

end Notify

/-! ## Runs -/

theorem setConfigBytes_frame {s s' : VirtioDevice} {pos : Nat} {bs : List U8}
    (h : setConfigBytes s pos bs = .done s') : ∃ cs, s' = { s with configSpace := cs } := by
  unfold setConfigBytes at h
  split at h
  · cases h; exact ⟨_, rfl⟩
  · cases h

/-- A config-space write changes nothing but the config space. -/
theorem virtioConfigWrite_frame {s s' : VirtioDevice} {offset val : U32} {sizeLog2 : Int}
    (h : virtioConfigWrite s offset val sizeLog2 = .done s') :
    ∃ cs, s' = { s with configSpace := cs } := by
  unfold virtioConfigWrite at h
  repeat' split at h
  all_goals first | exact setConfigBytes_frame h | (cases h; exact ⟨_, rfl⟩)

section Run

variable {F : Type} (fuel : Nat) (recv : DeviceRecvFunc F)

/-- What one operation can do to the transport: nothing, a config-space write, a
`queue_notify`, a 32-bit register write, a used-ring publication, or a config-change
interrupt. -/
theorem step_core {op : Op} {m m' : Machine F} (h : step fuel recv op m = .done m') :
    m'.core = m.core ∨ (∃ cs, m'.core = { m.core with configSpace := cs }) ∨
    (∃ q, queueNotify fuel recv q m = .done m') ∨
    (∃ offset val, op = .mmioWrite offset val 2 ∧ writeRegister m.core offset val = .done m'.core) ∨
    m'.core = m.core.raiseUsed ∨
    (op = .configChangeNotify ∧ m'.core = virtioConfigChangeNotify m.core) := by
  cases op with
  | mmioWrite offset val sizeLog2 =>
    simp only [step, virtioMmioWrite] at h
    split at h
    · obtain ⟨core, hc, e⟩ := Outcome.bind_eq_done.mp h
      cases e
      exact .inr (.inl (virtioConfigWrite_frame hc))
    split at h
    · split at h
      · split at h
        · exact .inr (.inr (.inl ⟨_, h⟩))
        · cases h; exact .inl rfl
      · obtain ⟨core, hc, e⟩ := Outcome.bind_eq_done.mp h
        cases e
        subst sizeLog2
        exact .inr (.inr (.inr (.inl ⟨offset, val, rfl, hc⟩)))
    · cases h; exact .inl rfl
  | mmioRead offset sizeLog2 =>
    obtain ⟨_, -, e⟩ := Outcome.bind_eq_done.mp h
    cases e; exact .inl rfl
  | notify q => exact .inr (.inr (.inl ⟨q, h⟩))
  | consumeDesc q d len => cases h; exact .inr (.inr (.inr (.inr (.inl rfl))))
  | configChangeNotify => cases h; exact .inr (.inr (.inr (.inr (.inr ⟨rfl, rfl⟩))))
  | guestWrite mem => cases h; exact .inl rfl

/-- Only a `queue_notify`, through the handler, changes the front end's state. -/
theorem step_front {op : Op} {m m' : Machine F} (h : step fuel recv op m = .done m') :
    m'.front = m.front ∨ ∃ q, queueNotify fuel recv q m = .done m' := by
  cases op with
  | mmioWrite offset val sizeLog2 =>
    simp only [step, virtioMmioWrite] at h
    split at h
    · obtain ⟨core, -, e⟩ := Outcome.bind_eq_done.mp h
      cases e; exact .inl rfl
    split at h
    · split at h
      · split at h
        · exact .inr ⟨_, h⟩
        · cases h; exact .inl rfl
      · obtain ⟨core, -, e⟩ := Outcome.bind_eq_done.mp h
        cases e; exact .inl rfl
    · cases h; exact .inl rfl
  | mmioRead offset sizeLog2 =>
    obtain ⟨_, -, e⟩ := Outcome.bind_eq_done.mp h
    cases e; exact .inl rfl
  | notify q => exact .inr ⟨q, h⟩
  | consumeDesc q d len => cases h; exact .inl rfl
  | configChangeNotify => cases h; exact .inl rfl
  | guestWrite mem => cases h; exact .inl rfl

/-- A property of machines that every operation keeps holds after every run. -/
theorem run_invariant (P : Machine F → Prop)
    (hstep : ∀ op m m', P m → step fuel recv op m = .done m' → P m') :
    ∀ ops m m', P m → run fuel recv ops m = .done m' → P m' := by
  intro ops
  induction ops with
  | nil => intro m m' hm h; cases h; exact hm
  | cons op ops ih =>
    intro m m' hm h
    obtain ⟨m1, h1, h2⟩ := Outcome.bind_eq_done.mp h
    exact ih m1 m' (hstep op m m1 hm h1) h2

end Run

end SpikeDevices.Virtio
