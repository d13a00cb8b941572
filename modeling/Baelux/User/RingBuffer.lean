import Baelux.Library.Ring

/-! `utils_ringbuffer.c`: the events between the GPIO interrupt and its task. -/

namespace Baelux.User

open Baelux.Ring

def utilConfRingbufferMaxAlloc : Nat := 1
def utilConfRingbufferMaxBuffersize : Nat := 32

structure RingbufferButtonData where
  data : BitVec 32
  status : BitVec 8
  timestamp : BitVec 32
  deriving DecidableEq, Repr

/-- `utils_ringbuffer_t`; only the first 32 cells of `buffer` are part of it. -/
structure UtilsRingbuffer where
  buffer : Nat → RingbufferButtonData
  inIdx : BitVec 8
  outIdx : BitVec 8

inductive UtilsRingbufferResult where
  | ok
  | maxalloc
  | notgood
  deriving DecidableEq, Repr

structure RingbufferStatics where
  mRingbuffers : Nat → UtilsRingbuffer
  mAllocCount : BitVec 32
  mDataCount : BitVec 32

def noEvent : RingbufferButtonData := ⟨0, 0, 0⟩

def clearedRingbuffer : UtilsRingbuffer := ⟨fun _ => noEvent, 0, 0⟩

def bootStatics : RingbufferStatics := ⟨fun _ => clearedRingbuffer, 0, 0⟩

/-- `utils_ringbuffer_alloc`. The source assigns the address of the new buffer to its own
parameter, so the buffer of the caller stays as it was. -/
def utilsRingbufferAlloc (s : RingbufferStatics) (handle : UtilsRingbuffer) :
    UtilsRingbufferResult × UtilsRingbuffer × RingbufferStatics :=
  if utilConfRingbufferMaxAlloc ≤ s.mAllocCount.toNat then (.maxalloc, handle, s)
  else
    let idxToAdd := s.mAllocCount.toNat
    (.ok, handle, { s with
      mAllocCount := s.mAllocCount + 1
      mRingbuffers := Function.update s.mRingbuffers idxToAdd clearedRingbuffer })

def UtilsRingbuffer.idx2push (handle : UtilsRingbuffer) : BitVec 8 :=
  if utilConfRingbufferMaxBuffersize ≤ handle.inIdx.toNat then 0 else handle.inIdx

def utilsRingbufferPush (handle : UtilsRingbuffer) (data : RingbufferButtonData)
    (s : RingbufferStatics) : UtilsRingbuffer × RingbufferStatics :=
  ({ handle with
      inIdx := handle.idx2push + 1
      buffer := Function.update handle.buffer handle.idx2push.toNat data },
    { s with mDataCount := s.mDataCount + 1 })

/-- `utils_ringbuffer_pop`; no event is read when the index lies outside the buffer. -/
def utilsRingbufferPop (handle : UtilsRingbuffer) (s : RingbufferStatics) :
    Option RingbufferButtonData × UtilsRingbuffer × RingbufferStatics :=
  let idx2pop := handle.outIdx
  let outIdx :=
    if utilConfRingbufferMaxBuffersize ≤ (handle.outIdx + 1).toNat then 0 else handle.outIdx + 1
  (if idx2pop.toNat < utilConfRingbufferMaxBuffersize then some (handle.buffer idx2pop.toNat)
    else none,
    { handle with outIdx := outIdx }, { s with mDataCount := s.mDataCount - 1 })

def utilsRingbufferGetDataCount (s : RingbufferStatics) : Nat := s.mDataCount.toNat

/-! ## Sessions -/

/-- A buffer in use, with what was pushed into it and popped from it so far, and whether
more than 32 events were ever pending. -/
structure Session where
  handle : UtilsRingbuffer
  statics : RingbufferStatics
  pushed : List RingbufferButtonData
  popped : List (Option RingbufferButtonData)
  overrun : Bool

inductive RingOp where
  | push (data : RingbufferButtonData)
  | pop

namespace Session

def opened (handle : UtilsRingbuffer) : Session :=
  let (_, handle, statics) := utilsRingbufferAlloc bootStatics handle
  ⟨handle, statics, [], [], false⟩

def count (s : Session) : Nat := utilsRingbufferGetDataCount s.statics

def step (s : Session) : RingOp → Session
  | .push data =>
      let (handle, statics) := utilsRingbufferPush s.handle data s.statics
      ⟨handle, statics, s.pushed ++ [data], s.popped, s.overrun ||
        decide (utilConfRingbufferMaxBuffersize < s.pushed.length + 1 - s.popped.length)⟩
  | .pop =>
      let (event, handle, statics) := utilsRingbufferPop s.handle s.statics
      ⟨handle, statics, s.pushed, s.popped ++ [event], s.overrun⟩

def Legal : Session → List RingOp → Prop
  | _, [] => True
  | s, op :: rest => (op = .pop → 0 < s.count) ∧ Legal (s.step op) rest

def NeverFull : Session → List RingOp → Prop
  | _, [] => True
  | s, op :: rest =>
      (∀ data, op = .push data → s.count < utilConfRingbufferMaxBuffersize) ∧
        NeverFull (s.step op) rest

/-- Events come out in the order they went in, none twice, and none is skipped as long as
no more than 32 were pending. -/
structure InOrder (s : Session) : Prop where
  order : s.popped.Sublist (s.pushed.map some)
  bounded : s.count ≤ utilConfRingbufferMaxBuffersize
  complete : s.overrun = false → s.popped <+: s.pushed.map some

def Fifo : Session → List RingOp → Prop
  | s, [] => s.InOrder
  | s, op :: rest => s.InOrder ∧ Fifo (s.step op) rest

end Session

/-- The first push goes where the first pop looks. -/
def UtilsRingbuffer.Aligned (handle : UtilsRingbuffer) : Prop := handle.idx2push = handle.outIdx

/-! ## The queue behind a session -/

namespace Session

structure Tracks (s : Session) (done queue : List RingbufferButtonData) : Prop where
  pushed : s.pushed = done ++ queue
  popped : s.popped = done.map some
  queued : Queued s.handle.buffer utilConfRingbufferMaxBuffersize s.handle.outIdx.toNat queue
  next : s.handle.idx2push.toNat =
    (s.handle.outIdx.toNat + queue.length) % utilConfRingbufferMaxBuffersize
  counted : s.count = queue.length
  overrun : s.overrun = false

variable {s : Session} {done queue : List RingbufferButtonData}

theorem idx2push_toNat (handle : UtilsRingbuffer) : handle.idx2push.toNat =
    if utilConfRingbufferMaxBuffersize ≤ handle.inIdx.toNat then 0 else handle.inIdx.toNat := by
  unfold UtilsRingbuffer.idx2push
  split
  · rfl
  · rfl

theorem idx2push_lt (handle : UtilsRingbuffer) :
    handle.idx2push.toNat < utilConfRingbufferMaxBuffersize := by
  rw [idx2push_toNat]
  split
  · decide
  · omega

private theorem index_succ {index : BitVec 8}
    (inside : index.toNat < utilConfRingbufferMaxBuffersize) :
    (index + 1).toNat = index.toNat + 1 := by
  have size : utilConfRingbufferMaxBuffersize = 32 := rfl
  rw [BitVec.toNat_add]
  exact Nat.mod_eq_of_lt (by change index.toNat + 1 < 256; omega)

theorem Tracks.inOrder (tracks : Tracks s done queue) : s.InOrder where
  order := by
    rw [tracks.pushed, tracks.popped, List.map_append]
    exact List.sublist_append_left _ _
  bounded := by
    rw [tracks.counted]
    exact tracks.queued.fits
  complete := by
    intro _
    rw [tracks.pushed, tracks.popped, List.map_append]
    exact List.prefix_append _ _

theorem opened_tracks {handle : UtilsRingbuffer} (aligned : handle.Aligned) :
    Tracks (opened handle) [] [] where
  pushed := rfl
  popped := rfl
  queued := Queued.empty (aligned ▸ idx2push_lt handle)
  next := by
    have inside := idx2push_lt handle
    rw [aligned] at inside
    change handle.idx2push.toNat = handle.outIdx.toNat % utilConfRingbufferMaxBuffersize
    rw [Nat.mod_eq_of_lt inside, aligned]
  counted := rfl
  overrun := rfl

private theorem idx2push_next (handle : UtilsRingbuffer) (data : RingbufferButtonData)
    (statics : RingbufferStatics) :
    (utilsRingbufferPush handle data statics).1.idx2push.toNat =
      (handle.idx2push.toNat + 1) % utilConfRingbufferMaxBuffersize := by
  have inside := idx2push_lt handle
  have next : (utilsRingbufferPush handle data statics).1.inIdx.toNat = handle.idx2push.toNat + 1 :=
    index_succ inside
  rw [idx2push_toNat, next, next_position inside]

private theorem outIdx_next {handle : UtilsRingbuffer} {statics : RingbufferStatics}
    (inside : handle.outIdx.toNat < utilConfRingbufferMaxBuffersize) :
    (utilsRingbufferPop handle statics).2.1.outIdx.toNat =
      (handle.outIdx.toNat + 1) % utilConfRingbufferMaxBuffersize := by
  rw [← next_position inside, ← index_succ inside]
  simp only [utilsRingbufferPop]
  split
  · rfl
  · rfl

theorem Tracks.count_push (tracks : Tracks s done queue) (data : RingbufferButtonData) :
    (s.step (.push data)).count = queue.length + 1 := by
  have fits := tracks.queued.fits
  have counted : s.statics.mDataCount.toNat = queue.length := tracks.counted
  have size : utilConfRingbufferMaxBuffersize = 32 := rfl
  change (s.statics.mDataCount + 1).toNat = _
  rw [BitVec.toNat_add, counted]
  exact Nat.mod_eq_of_lt (by change queue.length + 1 < 4294967296; omega)

theorem Tracks.push (tracks : Tracks s done queue) (data : RingbufferButtonData)
    (room : queue.length < utilConfRingbufferMaxBuffersize) :
    Tracks (s.step (.push data)) done (queue ++ [data]) where
  pushed := by
    change s.pushed ++ [data] = _
    rw [tracks.pushed, List.append_assoc]
  popped := tracks.popped
  queued := by
    have pushed := tracks.queued.push room data
    rw [← tracks.next] at pushed
    exact pushed
  next := by
    change (utilsRingbufferPush s.handle data s.statics).1.idx2push.toNat = _
    rw [idx2push_next, tracks.next, Nat.mod_add_mod, List.length_append, List.length_singleton,
      Nat.add_assoc]
    rfl
  counted := by
    rw [tracks.count_push, List.length_append, List.length_singleton]
  overrun := by
    change (s.overrun || decide (_ < s.pushed.length + 1 - s.popped.length)) = false
    rw [tracks.overrun, tracks.pushed, tracks.popped, List.length_append, List.length_map,
      Bool.false_or, decide_eq_false_iff_not]
    omega

theorem Tracks.first_popped {data : RingbufferButtonData} (tracks : Tracks s done (data :: queue)) :
    (utilsRingbufferPop s.handle s.statics).1 = some data := by
  simp only [utilsRingbufferPop]
  rw [if_pos tracks.queued.begins, tracks.queued.front]

theorem Tracks.pop {data : RingbufferButtonData} (tracks : Tracks s done (data :: queue)) :
    Tracks (s.step .pop) (done ++ [data]) queue where
  pushed := by
    change s.pushed = _
    rw [tracks.pushed, List.append_assoc]
    rfl
  popped := by
    change s.popped ++ [(utilsRingbufferPop s.handle s.statics).1] = _
    rw [tracks.first_popped, tracks.popped, List.map_append]
    rfl
  queued := by
    change Queued s.handle.buffer _ (utilsRingbufferPop s.handle s.statics).2.1.outIdx.toNat queue
    rw [outIdx_next tracks.queued.begins]
    exact tracks.queued.pop
  next := by
    change s.handle.idx2push.toNat =
      ((utilsRingbufferPop s.handle s.statics).2.1.outIdx.toNat + queue.length) % _
    rw [tracks.next, outIdx_next tracks.queued.begins, Nat.mod_add_mod, List.length_cons,
      Nat.add_assoc, Nat.add_comm 1]
  counted := by
    have fits := tracks.queued.fits
    have size : utilConfRingbufferMaxBuffersize = 32 := rfl
    have counted : s.statics.mDataCount.toNat = queue.length + 1 := tracks.counted
    change (s.statics.mDataCount - 1).toNat = _
    rw [BitVec.toNat_sub, counted]
    change (4294967296 - 1 + (queue.length + 1)) % 4294967296 = queue.length
    rw [List.length_cons] at fits
    omega
  overrun := tracks.overrun

/-! ## Runs -/

theorem Tracks.count_full (tracks : Tracks s done queue)
    (full : ¬ s.count < utilConfRingbufferMaxBuffersize) (data : RingbufferButtonData) :
    ¬ (s.step (.push data)).InOrder := by
  intro inOrder
  have bounded := inOrder.bounded
  have more := tracks.count_push data
  rw [tracks.counted] at full
  omega

theorem Tracks.fifo_iff (tracks : Tracks s done queue) (ops : List RingOp) (legal : s.Legal ops) :
    s.Fifo ops ↔ s.NeverFull ops := by
  induction ops generalizing s done queue with
  | nil => exact ⟨fun _ => trivial, fun _ => tracks.inOrder⟩
  | cons op rest ih =>
      rcases legal with ⟨allowed, later⟩
      cases op with
      | push data =>
          by_cases room : s.count < utilConfRingbufferMaxBuffersize
          · have next := tracks.push data (tracks.counted ▸ room)
            constructor
            · intro fifo
              exact ⟨fun _ _ => room, (ih next later).mp fifo.2⟩
            · intro never
              exact ⟨tracks.inOrder, (ih next later).mpr never.2⟩
          · constructor
            · intro fifo
              have after : (s.step (.push data)).InOrder := by
                cases rest with
                | nil => exact fifo.2
                | cons op rest => exact fifo.2.1
              exact absurd after (tracks.count_full room data)
            · intro never
              exact absurd (never.1 data rfl) room
      | pop =>
          have some_left := allowed rfl
          rw [tracks.counted] at some_left
          cases queue with
          | nil => exact absurd some_left (Nat.lt_irrefl 0)
          | cons data queue =>
              have next := tracks.pop
              constructor
              · intro fifo
                exact ⟨fun _ other => RingOp.noConfusion other, (ih next later).mp fifo.2⟩
              · intro never
                exact ⟨tracks.inOrder, (ih next later).mpr never.2⟩

private theorem unaligned_fails {handle : UtilsRingbuffer} (unaligned : ¬ handle.Aligned) :
    ∃ ops, (opened handle).Legal ops ∧ (opened handle).NeverFull ops ∧
      ¬ (opened handle).Fifo ops := by
  -- an event that differs from what the cell of the pop index holds
  obtain ⟨data, other⟩ : ∃ data, data ≠ handle.buffer handle.outIdx.toNat := by
    by_cases blank : noEvent = handle.buffer handle.outIdx.toNat
    · refine ⟨⟨1, 0, 0⟩, ?_⟩
      rw [← blank]
      decide
    · exact ⟨noEvent, blank⟩
  have apart : handle.outIdx.toNat ≠ handle.idx2push.toNat :=
    fun same => unaligned (BitVec.eq_of_toNat_eq same.symm)
  refine ⟨[.push data, .pop], ⟨fun pops => RingOp.noConfusion pops, fun _ => ?_, trivial⟩,
    ⟨fun _ _ => ?_, fun _ pushes => RingOp.noConfusion pushes, trivial⟩, ?_⟩
  · exact Nat.zero_lt_one
  · exact Nat.zero_lt_succ 31
  intro holds
  rcases holds with ⟨_, _, inOrder⟩
  have order := inOrder.order
  have kept : Function.update handle.buffer handle.idx2push.toNat data handle.outIdx.toNat =
      handle.buffer handle.outIdx.toNat := Function.update_of_ne apart _ _
  have event : (((opened handle).step (.push data)).step .pop).popped =
      [if handle.outIdx.toNat < utilConfRingbufferMaxBuffersize then
        some (handle.buffer handle.outIdx.toNat) else none] := by
    rw [← kept]
    rfl
  rw [event] at order
  have first : _ ∈ [some data] := List.singleton_sublist.mp order
  rw [List.mem_singleton] at first
  split at first
  · exact other (Option.some.inj first).symm
  · cases first

end Session

open Session

/-- A buffer whose indices agree is a queue exactly as long as nothing is pushed into it
while it is full; one whose indices disagree is not. -/
theorem ringbuffer_fifo_iff (handle : UtilsRingbuffer) :
    (handle.Aligned → ∀ ops, (opened handle).Legal ops →
      ((opened handle).Fifo ops ↔ (opened handle).NeverFull ops)) ∧
    (¬ handle.Aligned → ∃ ops, (opened handle).Legal ops ∧ (opened handle).NeverFull ops ∧
      ¬ (opened handle).Fifo ops) :=
  ⟨fun aligned ops legal => (opened_tracks aligned).fifo_iff ops legal, unaligned_fails⟩

def burst (n : Nat) : List RingOp :=
  (List.range n).map fun i => .push ⟨BitVec.ofNat 32 i, 0, 0⟩

private theorem legal_pushes (s : Session) (ops : List RingOp) (pushes : .pop ∉ ops) :
    s.Legal ops := by
  induction ops generalizing s with
  | nil => trivial
  | cons op rest ih =>
      refine ⟨?_, ih _ fun later => pushes (List.mem_cons_of_mem _ later)⟩
      intro same
      subst same
      exact absurd (List.mem_cons_self ..) pushes

private theorem Session.Fifo.last {s : Session} {ops : List RingOp} (fifo : s.Fifo ops) :
    (ops.foldl step s).InOrder := by
  induction ops generalizing s with
  | nil => exact fifo
  | cons op rest ih => exact ih fifo.2

/-- The thirty-third event of a burst is counted, and written over the first. -/
theorem burst_overflows : (opened clearedRingbuffer).Legal (burst 33) ∧
    ¬ (opened clearedRingbuffer).Fifo (burst 33) := by
  refine ⟨legal_pushes _ _ (by simp [burst]), fun fifo => ?_⟩
  have bounded := fifo.last.bounded
  revert bounded
  decide

end Baelux.User
