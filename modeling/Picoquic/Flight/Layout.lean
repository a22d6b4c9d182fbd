import Picoquic.Flight.Packets

/-!
# The lists that the pointers stand for

* `Layout` — the queue and the retransmitted packets of each space, and the packets of each path, as
  plain lists;
* `Linked` — the pointers are those of a layout, and the flags of a packet say in which of its lists
  it is. One packet may be on its way from one list to another.
-/

namespace Picoquic

open FlightPacket

namespace Flight

/-! ### Pointers -/

section Lists

variable (s : Flight) (i i' j j' a : ℕ) (L : LinkedList ℕ)

@[simp]
theorem queueList_setQueueList : (s.setQueueList i L).queueList i = L := by
  simp [queueList, setQueueList]

theorem queueList_setQueueList_of_ne (h : i' ≠ i) :
    (s.setQueueList i L).queueList i' =
      { s.queueList i' with next := L.next, previous := L.previous } := by
  simp [queueList, setQueueList, h]

@[simp]
theorem retransmittedList_setQueueList :
    (s.setQueueList i L).retransmittedList i' =
      { s.retransmittedList i' with next := L.previous, previous := L.next } := by
  by_cases h : i' = i
  · subst h
    simp [retransmittedList, setQueueList]
  · simp [retransmittedList, setQueueList, h]

@[simp]
theorem retransmittedList_setRetransmittedList :
    (s.setRetransmittedList i L).retransmittedList i = L := by
  simp [retransmittedList, setRetransmittedList]

theorem retransmittedList_setRetransmittedList_of_ne (h : i' ≠ i) :
    (s.setRetransmittedList i L).retransmittedList i' =
      { s.retransmittedList i' with next := L.next, previous := L.previous } := by
  simp [retransmittedList, setRetransmittedList, h]

@[simp]
theorem queueList_setRetransmittedList :
    (s.setRetransmittedList i L).queueList i' =
      { s.queueList i' with next := L.previous, previous := L.next } := by
  by_cases h : i' = i
  · subst h
    simp [queueList, setRetransmittedList]
  · simp [queueList, setRetransmittedList, h]

@[simp]
theorem pathList_setRetransmittedList :
    (s.setRetransmittedList i L).pathList j = s.pathList j := rfl

@[simp]
theorem pathList_setPathList : (s.setPathList j L).pathList j = L := by
  simp [pathList, setPathList]

theorem pathList_setPathList_of_ne (h : j' ≠ j) :
    (s.setPathList j L).pathList j' =
      { s.pathList j' with next := L.next, previous := L.previous } := by
  simp [pathList, setPathList, h]

end Lists

theorem packets_setPacket (s : Flight) (a : ℕ) (p : FlightPacket) :
    (s.setPacket a p).packets a = p :=
  Function.update_self ..

theorem packets_setPacket_of_ne {s : Flight} {a b : ℕ} (p : FlightPacket) (h : b ≠ a) :
    (s.setPacket a p).packets b = s.packets b :=
  Function.update_of_ne h ..

theorem setPacket_field {α : Type*} {s : Flight} {a : ℕ} {p : FlightPacket} (f : FlightPacket → α)
    (h : f p = f (s.packets a)) (b : ℕ) : f ((s.setPacket a p).packets b) = f (s.packets b) := by
  by_cases hb : b = a
  · subst hb
    rw [packets_setPacket]
    exact h
  · rw [packets_setPacket_of_ne p hb]

section SetPacket

variable {s : Flight} {a : ℕ} {p : FlightPacket}

theorem queueList_setPacket (hn : p.next = (s.packets a).next)
    (hp : p.previous = (s.packets a).previous) (i : ℕ) :
    (s.setPacket a p).queueList i = s.queueList i :=
  congrArg₂ (LinkedList.mk _ _) (funext (setPacket_field next hn))
    (funext (setPacket_field previous hp))

theorem retransmittedList_setPacket (hn : p.next = (s.packets a).next)
    (hp : p.previous = (s.packets a).previous) (i : ℕ) :
    (s.setPacket a p).retransmittedList i = s.retransmittedList i :=
  congrArg₂ (LinkedList.mk _ _) (funext (setPacket_field previous hp))
    (funext (setPacket_field next hn))

theorem pathList_setPacket (hn : p.pathNext = (s.packets a).pathNext)
    (hp : p.pathPrevious = (s.packets a).pathPrevious) (j : ℕ) :
    (s.setPacket a p).pathList j = s.pathList j :=
  congrArg₂ (LinkedList.mk _ _) (funext (setPacket_field pathPrevious hp))
    (funext (setPacket_field pathNext hn))

end SetPacket

section Outside

variable {s : Flight} {a : ℕ} {l : List ℕ} (ha : a ∉ l) (p : FlightPacket)
include ha

theorem queueList_is_setPacket {i : ℕ} (h : (s.queueList i).Is l) :
    ((s.setPacket a p).queueList i).Is l :=
  have hne : ∀ b ∈ l, b ≠ a := fun _ hb heq => ha (heq ▸ hb)
  h.congr rfl rfl (fun b hb => congrArg next (packets_setPacket_of_ne p (hne b hb)))
    fun b hb => congrArg previous (packets_setPacket_of_ne p (hne b hb))

theorem retransmittedList_is_setPacket {i : ℕ} (h : (s.retransmittedList i).Is l) :
    ((s.setPacket a p).retransmittedList i).Is l :=
  have hne : ∀ b ∈ l, b ≠ a := fun _ hb heq => ha (heq ▸ hb)
  h.congr rfl rfl
    (fun b hb => congrArg previous (packets_setPacket_of_ne p (hne b hb)))
    fun b hb => congrArg next (packets_setPacket_of_ne p (hne b hb))

theorem pathList_is_setPacket {j : ℕ} (h : (s.pathList j).Is l) :
    ((s.setPacket a p).pathList j).Is l :=
  have hne : ∀ b ∈ l, b ≠ a := fun _ hb heq => ha (heq ▸ hb)
  h.congr rfl rfl
    (fun b hb => congrArg pathPrevious (packets_setPacket_of_ne p (hne b hb)))
    fun b hb => congrArg pathNext (packets_setPacket_of_ne p (hne b hb))

end Outside

/-! ### Flags -/

section Flags

variable (s : Flight) (a b i j : ℕ) (isQueued : Bool)

@[simp]
theorem queueList_setQueued : (s.setQueued a isQueued).queueList i = s.queueList i := by
  apply queueList_setPacket <;> rfl

@[simp]
theorem retransmittedList_setQueued :
    (s.setQueued a isQueued).retransmittedList i = s.retransmittedList i := by
  apply retransmittedList_setPacket <;> rfl

@[simp]
theorem pathList_setQueued : (s.setQueued a isQueued).pathList j = s.pathList j := by
  apply pathList_setPacket <;> rfl

@[simp]
theorem isQueued_setQueued :
    ((s.setQueued a isQueued).packets a).isQueuedForRetransmit = isQueued :=
  congrArg isQueuedForRetransmit (packets_setPacket s a _)

@[simp]
theorem space_setQueued : ((s.setQueued a isQueued).packets b).space = (s.packets b).space := by
  apply setPacket_field space
  rfl

@[simp]
theorem sendPath_setQueued :
    ((s.setQueued a isQueued).packets b).sendPath = (s.packets b).sendPath := by
  apply setPacket_field sendPath
  rfl

@[simp]
theorem isQueuedToPath_setQueued :
    ((s.setQueued a isQueued).packets b).isQueuedToPath = (s.packets b).isQueuedToPath := by
  apply setPacket_field isQueuedToPath
  rfl

@[simp]
theorem queueList_setQueuedToPath : (s.setQueuedToPath a isQueued).queueList i = s.queueList i := by
  apply queueList_setPacket <;> rfl

@[simp]
theorem retransmittedList_setQueuedToPath :
    (s.setQueuedToPath a isQueued).retransmittedList i = s.retransmittedList i := by
  apply retransmittedList_setPacket <;> rfl

@[simp]
theorem pathList_setQueuedToPath : (s.setQueuedToPath a isQueued).pathList j = s.pathList j := by
  apply pathList_setPacket <;> rfl

@[simp]
theorem isQueuedToPath_setQueuedToPath :
    ((s.setQueuedToPath a isQueued).packets a).isQueuedToPath = isQueued :=
  congrArg isQueuedToPath (packets_setPacket s a _)

@[simp]
theorem space_setQueuedToPath :
    ((s.setQueuedToPath a isQueued).packets b).space = (s.packets b).space := by
  apply setPacket_field space
  rfl

@[simp]
theorem sendPath_setQueuedToPath :
    ((s.setQueuedToPath a isQueued).packets b).sendPath = (s.packets b).sendPath := by
  apply setPacket_field sendPath
  rfl

@[simp]
theorem isQueued_setQueuedToPath :
    ((s.setQueuedToPath a isQueued).packets b).isQueuedForRetransmit =
      (s.packets b).isQueuedForRetransmit := by
  apply setPacket_field isQueuedForRetransmit
  rfl

@[simp]
theorem queueList_forgetPath : (s.forgetPath a).queueList i = s.queueList i := by
  apply queueList_setPacket <;> rfl

@[simp]
theorem retransmittedList_forgetPath :
    (s.forgetPath a).retransmittedList i = s.retransmittedList i := by
  apply retransmittedList_setPacket <;> rfl

@[simp]
theorem pathList_forgetPath : (s.forgetPath a).pathList j = s.pathList j := by
  apply pathList_setPacket <;> rfl

@[simp]
theorem space_forgetPath : ((s.forgetPath a).packets b).space = (s.packets b).space := by
  apply setPacket_field space
  rfl

@[simp]
theorem isQueued_forgetPath :
    ((s.forgetPath a).packets b).isQueuedForRetransmit =
      (s.packets b).isQueuedForRetransmit := by
  apply setPacket_field isQueuedForRetransmit
  rfl

@[simp]
theorem sendPath_forgetPath : ((s.forgetPath a).packets a).sendPath = none :=
  congrArg sendPath (packets_setPacket s a _)

variable {a b}

theorem packets_forgetPath_of_ne (h : b ≠ a) : (s.forgetPath a).packets b = s.packets b :=
  packets_setPacket_of_ne _ h

theorem packets_setQueued_of_ne (h : b ≠ a) : (s.setQueued a isQueued).packets b = s.packets b :=
  packets_setPacket_of_ne _ h

theorem packets_setQueuedToPath_of_ne (h : b ≠ a) :
    (s.setQueuedToPath a isQueued).packets b = s.packets b :=
  packets_setPacket_of_ne _ h

end Flags

/-! ### Layouts -/

/-- The lists of a connection. -/
structure Layout where
  queue : ℕ → List ℕ
  retransmitted : ℕ → List ℕ
  onPath : ℕ → List ℕ

/-- The pointers and flags are those of a layout. The packet `h`, if there is one, is on its way: it
is not among the retransmitted ones, and its flags may differ. -/
structure Linked (s : Flight) (L : Layout) (h : Option ℕ) : Prop where
  queue_is : ∀ i, (s.queueList i).Is (L.queue i)
  retransmitted_is : ∀ i, (s.retransmittedList i).Is (L.retransmitted i)
  path_is : ∀ j, (s.pathList j).Is (L.onPath j)
  mem_queue : ∀ i a, a ∈ L.queue i ↔
    a ∈ s.inUse ∧ (s.packets a).isQueuedForRetransmit = true ∧ (s.packets a).space = i
  mem_retransmitted : ∀ i a, a ∈ L.retransmitted i ↔
    some a ≠ h ∧ a ∈ s.inUse ∧ (s.packets a).isQueuedForRetransmit = false ∧
      (s.packets a).space = i
  mem_path : ∀ j a, a ∈ L.onPath j ↔
    a ∈ s.inUse ∧ (s.packets a).isQueuedToPath = true ∧ (s.packets a).sendPath = some j
  flags : ∀ a ∈ s.inUse, some a ≠ h → (s.packets a).sendPath ≠ none →
    (s.packets a).isQueuedToPath = (s.packets a).isQueuedForRetransmit
  no_path : ∀ j ∉ s.pathTable, L.onPath j = []
  nodup : s.inUse.Nodup

/-- The flags of a packet say in which lists it is. -/
def tags (p : FlightPacket) : Bool × Bool × Option ℕ × ℕ :=
  (p.isQueuedForRetransmit, p.isQueuedToPath, p.sendPath, p.space)

/-- What a packet counts for the bytes in transit. -/
def charge (p : FlightPacket) : ℕ := if p.isAckTrap = true then 0 else p.length + p.checksumOverhead

namespace Linked

variable {s s' : Flight} {L : Layout} {h : Option ℕ} {a : ℕ}

section

variable (hL : s.Linked L h)

include hL

/-- The lists do not depend on anything else. -/
theorem of_eq (hq : ∀ i, s'.queueList i = s.queueList i)
    (hr : ∀ i, s'.retransmittedList i = s.retransmittedList i)
    (hp : ∀ j, s'.pathList j = s.pathList j) (hu : s'.inUse = s.inUse)
    (ht : s'.pathTable = s.pathTable) (htags : ∀ a, tags (s'.packets a) = tags (s.packets a)) :
    s'.Linked L h := by
  have htags' : ∀ a, (s'.packets a).isQueuedForRetransmit = (s.packets a).isQueuedForRetransmit ∧
      (s'.packets a).isQueuedToPath = (s.packets a).isQueuedToPath ∧
      (s'.packets a).sendPath = (s.packets a).sendPath ∧
      (s'.packets a).space = (s.packets a).space := fun a => by
    have := htags a
    simpa only [tags, Prod.mk.injEq] using this
  refine ⟨fun i => hq i ▸ hL.queue_is i, fun i => hr i ▸ hL.retransmitted_is i,
    fun j => hp j ▸ hL.path_is j, fun i a => ?_, fun i a => ?_, fun j a => ?_, fun a ha => ?_,
    ht ▸ hL.no_path, hu ▸ hL.nodup⟩
  · rw [hL.mem_queue, hu, (htags' a).1, (htags' a).2.2.2]
  · rw [hL.mem_retransmitted, hu, (htags' a).1, (htags' a).2.2.2]
  · rw [hL.mem_path, hu, (htags' a).2.1, (htags' a).2.2.1]
  · rw [(htags' a).1, (htags' a).2.1, (htags' a).2.2.1]
    exact hL.flags a (hu ▸ ha)

theorem setBytes (j n : ℕ) :
    (s.setPath j { s.paths j with bytesInTransit := n }).Linked L h := by
  refine hL.of_eq (fun _ => rfl) (fun _ => rfl) (fun j' => ?_) rfl rfl fun _ => rfl
  by_cases hj : j' = j
  · subst hj
    simp [pathList, setPath]
  · simp [pathList, setPath, hj]

theorem setPacket_same {p : FlightPacket} (hn : p.next = (s.packets a).next)
    (hp : p.previous = (s.packets a).previous) (hpn : p.pathNext = (s.packets a).pathNext)
    (hpp : p.pathPrevious = (s.packets a).pathPrevious) (htags : tags p = tags (s.packets a)) :
    (s.setPacket a p).Linked L h :=
  hL.of_eq (queueList_setPacket hn hp) (retransmittedList_setPacket hn hp)
    (pathList_setPacket hpn hpp) rfl rfl (setPacket_field tags htags)

theorem inUse_of_mem_queue {i : ℕ} (ha : a ∈ L.queue i) : a ∈ s.inUse :=
  ((hL.mem_queue i a).mp ha).1

theorem inUse_of_mem_retransmitted {i : ℕ} (ha : a ∈ L.retransmitted i) :
    a ∈ s.inUse :=
  ((hL.mem_retransmitted i a).mp ha).2.1

theorem inUse_of_mem_path {j : ℕ} (ha : a ∈ L.onPath j) : a ∈ s.inUse :=
  ((hL.mem_path j a).mp ha).1

end

end Linked

end Flight

end Picoquic
