import Mathlib.Data.List.Basic
import Mathlib.Data.List.GetD
import Mathlib.Logic.Relation
import TraceGen.Pool.SharedQueues

/-!
# Shared queues give items in the order in which they were put

Clients put and take items, share handles and make queues, in any order (`SharedQueues.Run`). A
handle that was made by sharing another one is a clone of it, and so are clones of clones
(`SharedQueues.Kin`). `SharedQueues.first_in_first_out` says that the items taken through a handle
and its clones, followed by those that are left, are the items put through them, in order, and that
nothing else matters to them.

The state does not know how a handle was made, only which queue it names. `SharedQueues.Accounted`
ties the two together: what was done tells where each handle comes from, a shared handle names the
queue of the one it was made from, and a handle for a new queue names one that none before it does.
So two handles name one queue exactly if they are clones (`Accounted.queueOf_eq_iff`). The balance
of items is kept for each queue (`Accounted.balance`) and read for each group of clones.
-/

namespace TraceGen.SharedQueues

variable {α : Type} {s s' : SharedQueues α}

/-! ## Histories -/

/-- What a client has done, and what came of it. -/
inductive Event (α : Type) where
  /-- An item was put through a handle. -/
  | put (handle : Nat) (item : α)
  /-- An item was asked for through a handle. -/
  | get (handle : Nat) (answer : Except QueueError α)
  /-- A handle was shared. -/
  | share (handle : Nat)
  /-- A queue was made. -/
  | addQueue

/-- The handle that an event uses. -/
def Event.handle? : Event α → Option Nat
  | .put handle _ => some handle
  | .get handle _ => some handle
  | .share handle => some handle
  | .addQueue => none

/-- What an event puts, and through which handle. -/
def Event.put? : Event α → Option (Nat × α)
  | .put handle item => some (handle, item)
  | _ => none

/-- What an event takes, and through which handle. -/
def Event.taken? : Event α → Option (Nat × α)
  | .get handle (.ok item) => some (handle, item)
  | _ => none

/-- How the handle that an event makes was made: by sharing another one, or for a new queue. -/
def Event.origin? : Event α → Option (Option Nat)
  | .share handle => some (some handle)
  | .addQueue => some none
  | _ => none

/-- A client does something with a handle that there is. -/
inductive Step (s : SharedQueues α) : Event α → SharedQueues α → Prop
  /-- Puts an item. -/
  | put (handle : Nat) (item : α) (h : handle < s.handles.length) :
    Step s (.put handle item) (s.put handle item)
  /-- Asks for an item. -/
  | get (handle : Nat) (h : handle < s.handles.length) :
    Step s (.get handle (s.get handle).1) (s.get handle).2
  /-- Shares a handle. -/
  | share (handle : Nat) (h : handle < s.handles.length) :
    Step s (.share handle) (s.share handle)
  /-- Makes a queue. -/
  | addQueue : Step s .addQueue s.addQueue

/-- A state that clients have reached by any steps in any order, and what they did. -/
inductive Run : List (Event α) → SharedQueues α → Prop
  /-- The first handle. -/
  | start : Run [] start
  /-- One more step. -/
  | step {events : List (Event α)} {event : Event α} {s s' : SharedQueues α} (h : Run events s)
    (hstep : Step s event s') : Run (events ++ [event]) s'

/-- The items that went through a group of handles. -/
def through (group : Nat → Bool) (moves : List (Nat × α)) : List α :=
  (moves.filter (group ·.1)).map (·.2)

/-- The items that were put through a group of handles, in order. -/
def putThrough (group : Nat → Bool) (events : List (Event α)) : List α :=
  through group (events.filterMap Event.put?)

/-- The items that were taken through a group of handles, in order. -/
def takenThrough (group : Nat → Bool) (events : List (Event α)) : List α :=
  through group (events.filterMap Event.taken?)

/-- How the handles were made, one after the other. The first one is there from the start. -/
def origins (events : List (Event α)) : List (Option Nat) :=
  none :: events.filterMap Event.origin?

/-- Two handles are clones of one another: one was made by sharing the other, or both are clones of
a third. -/
def Kin (events : List (Event α)) : Nat → Nat → Prop :=
  Relation.EqvGen fun handle other => (origins events)[handle]? = some (some other)

/-! ## Items through a group of handles -/

variable {events : List (Event α)} {event : Event α} {handle other : Nat}
  {group group' : Nat → Bool}

/-- What went through a group later comes after what went through it before. -/
theorem through_append (group : Nat → Bool) (moves moves' : List (Nat × α)) :
    through group (moves ++ moves') = through group moves ++ through group moves' := by
  simp only [through, List.filter_append, List.map_append]

/-- An event puts through the handle that it uses. -/
theorem Event.handle?_of_put? {move : Nat × α} (h : event.put? = some move) :
    event.handle? = some move.1 := by
  cases event with
  | put =>
    cases h
    rfl
  | get | share | addQueue => cases h

/-- An event takes through the handle that it uses. -/
theorem Event.handle?_of_taken? {move : Nat × α} (h : event.taken? = some move) :
    event.handle? = some move.1 := by
  cases event with
  | get handle answer =>
    cases answer with
    | ok =>
      cases h
      rfl
    | error => cases h
  | put | share | addQueue => cases h

/-- Which items went through a group depends on the handles that were used. -/
theorem through_filterMap_congr {move? : Event α → Option (Nat × α)}
    (hmove : ∀ event move, move? event = some move → event.handle? = some move.1)
    (h : ∀ event ∈ events, ∀ handle ∈ event.handle?, group handle = group' handle) :
    through group (events.filterMap move?) = through group' (events.filterMap move?) := by
  refine congrArg (List.map _) (List.filter_congr fun move hmem => ?_)
  obtain ⟨event, hevent, heq⟩ := List.mem_filterMap.1 hmem
  exact h event hevent move.1 (hmove event move heq)

/-- An event that does not use a group moves nothing through it. -/
theorem through_toList_eq_nil {move? : Event α → Option (Nat × α)}
    (hmove : ∀ event move, move? event = some move → event.handle? = some move.1)
    (h : ∀ handle ∈ event.handle?, group handle = false) :
    through group (move? event).toList = [] := by
  cases heq : move? event with
  | none => rfl
  | some move => simp [through, h move.1 (hmove event move heq)]

/-- What goes through a group in the last step is last. -/
theorem through_filterMap_append_singleton (group : Nat → Bool)
    (move? : Event α → Option (Nat × α)) (events : List (Event α)) (event : Event α) :
    through group ((events ++ [event]).filterMap move?) =
      through group (events.filterMap move?) ++ through group (move? event).toList := by
  rw [List.filterMap_append, through_append]
  cases heq : move? event <;> simp [heq]

/-! ## One step -/

/-- The items of a queue. -/
def contents (s : SharedQueues α) (queue : Nat) : List α :=
  s.queues.getD queue []

/-- A step uses handles that there are. -/
theorem Step.handle_lt (h : Step s event s') : ∀ handle ∈ event.handle?,
    handle < s.handles.length := by
  cases h <;> simp_all [Event.handle?]

/-- A step makes one handle if it makes any. -/
theorem Step.length_handles (h : Step s event s') :
    s'.handles.length = s.handles.length + event.origin?.toList.length := by
  cases h with
  | put => rfl
  | get =>
    unfold SharedQueues.get
    split <;> rfl
  | share => exact List.length_append
  | addQueue => exact List.length_append

/-- A step keeps the queues of all handles that there were. -/
theorem Step.queueOf (h : Step s event s') (hhandle : handle < s.handles.length) :
    s'.queueOf handle = s.queueOf handle := by
  cases h with
  | put => rfl
  | get =>
    unfold SharedQueues.get
    split <;> rfl
  | share => exact List.getD_append _ _ _ _ hhandle
  | addQueue => exact List.getD_append _ _ _ _ hhandle

/-- A step keeps all queues. -/
theorem Step.length_queues (h : Step s event s') : s.queues.length ≤ s'.queues.length := by
  cases h with
  | put => exact Nat.le_of_eq (List.length_modify _ _ _).symm
  | get =>
    unfold SharedQueues.get
    split
    · exact Nat.le_refl _
    · exact Nat.le_of_eq List.length_set.symm
  | share => exact Nat.le_refl _
  | addQueue => simp [SharedQueues.addQueue]

/-- A handle that is made by sharing another one names the queue of that one. -/
theorem Step.shared (h : Step s event s') (horigin : event.origin? = some (some other)) :
    other < s.handles.length ∧ s'.queueOf s.handles.length = s.queueOf other := by
  cases h with
  | put | get | addQueue => cases horigin
  | share _ hhandle =>
    cases horigin
    exact ⟨hhandle, by simp [SharedQueues.share, SharedQueues.queueOf]⟩

/-- A handle that is made for a new queue names the last one. -/
theorem Step.fresh (h : Step s event s') (horigin : event.origin? = some none) :
    s'.queueOf s.handles.length = s.queues.length ∧ s.queues.length < s'.queues.length := by
  cases h with
  | put | get | share => cases horigin
  | addQueue => simp [SharedQueues.addQueue, SharedQueues.queueOf]

/-- What a put does to each queue. -/
theorem contents_put (hqueue : s.queueOf handle < s.queues.length) (item : α) (queue : Nat) :
    (s.put handle item).contents queue =
      s.contents queue ++ through (s.queueOf · == queue) [(handle, item)] := by
  simp only [contents, put, through, List.getD_eq_getElem?_getD, List.getElem?_modify]
  by_cases heq : s.queueOf handle = queue
  · simp [← heq, hqueue]
  · simp [heq]

/-- What a get does to each queue. -/
theorem contents_get (hqueue : s.queueOf handle < s.queues.length) (queue : Nat) :
    through (s.queueOf · == queue) (Event.taken? (.get handle (s.get handle).1)).toList ++
      (s.get handle).2.contents queue = s.contents queue := by
  unfold SharedQueues.get
  split
  · rfl
  next item rest hitems =>
    simp only [contents, Event.taken?, through, List.getD_eq_getElem?_getD, List.getElem?_set]
    by_cases heq : s.queueOf handle = queue
    · subst heq
      simpa [hqueue, items] using hitems.symm
    · simp [heq]

/-- A new queue is empty. -/
theorem contents_addQueue (s : SharedQueues α) (queue : Nat) :
    s.addQueue.contents queue = s.contents queue := by
  simp only [contents, addQueue, List.getD_eq_getElem?_getD, List.getElem?_append]
  split
  · rfl
  · cases hd : queue - s.queues.length <;> simp_all

/-- What a step takes out of a queue was first in it, and what it puts in is last. -/
theorem Step.balance (h : Step s event s')
    (hqueue : ∀ handle < s.handles.length, s.queueOf handle < s.queues.length) (queue : Nat) :
    through (s.queueOf · == queue) event.taken?.toList ++ s'.contents queue =
      s.contents queue ++ through (s.queueOf · == queue) event.put?.toList := by
  cases h with
  | put _ item hhandle => exact contents_put (hqueue _ hhandle) item queue
  | get _ hhandle => exact (contents_get (hqueue _ hhandle) queue).trans (List.append_nil _).symm
  | share => exact (List.append_nil _).symm
  | addQueue => exact (contents_addQueue s queue).trans (List.append_nil _).symm

/-- A step that does not use a queue leaves its items as they are. -/
theorem Step.contents (h : Step s event s')
    (hqueue : ∀ handle < s.handles.length, s.queueOf handle < s.queues.length) {queue : Nat}
    (hapart : ∀ handle ∈ event.handle?, (s.queueOf handle == queue) = false) :
    s'.contents queue = s.contents queue := by
  have hbalance := h.balance hqueue queue
  rwa [through_toList_eq_nil (fun _ _ => Event.handle?_of_put?) hapart,
    through_toList_eq_nil (fun _ _ => Event.handle?_of_taken?) hapart, List.append_nil,
    List.nil_append] at hbalance

/-! ## Runs -/

/-- What was done accounts for the handles and for the items of the queues. -/
structure Accounted (events : List (Event α)) (s : SharedQueues α) : Prop where
  /-- It is known of every handle how it was made. -/
  length_origins : (origins events).length = s.handles.length
  /-- Every handle names a queue that there is. -/
  queueOf_lt : ∀ handle < s.handles.length, s.queueOf handle < s.queues.length
  /-- Only handles that there are have been used. -/
  handle_lt : ∀ event ∈ events, ∀ handle ∈ event.handle?, handle < s.handles.length
  /-- A handle that was made by sharing another one names the queue of that one, which is older. -/
  shared : ∀ handle other, (origins events)[handle]? = some (some other) →
    other < handle ∧ s.queueOf other = s.queueOf handle
  /-- A handle that was made for a new queue names a queue that no older handle names. -/
  fresh : ∀ handle, (origins events)[handle]? = some none →
    ∀ other < handle, s.queueOf other < s.queueOf handle
  /-- The items taken out of a queue and those that are left in it are those put in, in order. -/
  balance : ∀ queue, takenThrough (s.queueOf · == queue) events ++ s.contents queue =
    putThrough (s.queueOf · == queue) events

/-- At the start there is one handle of one empty queue. -/
theorem Accounted.start : Accounted [] (start : SharedQueues α) where
  length_origins := rfl
  queueOf_lt handle h := by simp_all [SharedQueues.start, SharedQueues.queueOf]
  handle_lt := by simp
  shared handle other h := by cases handle <;> simp [origins] at h
  fresh handle h other hother := by cases handle <;> simp_all [origins]
  balance queue := by cases queue <;> rfl

/-- A step adds how it makes a handle. -/
theorem origins_append_singleton (events : List (Event α)) (event : Event α) :
    origins (events ++ [event]) = origins events ++ event.origin?.toList := by
  simp only [origins, List.filterMap_append]
  cases horigin : event.origin? <;> simp [horigin]

/-- The origin of a handle after a step: it was there before, or the step has made it. -/
theorem Accounted.origins_step (h : Accounted events s) {origin : Option Nat}
    (horigin : (origins (events ++ [event]))[handle]? = some origin) :
    (handle < s.handles.length ∧ (origins events)[handle]? = some origin) ∨
      (handle = s.handles.length ∧ event.origin? = some origin) := by
  rw [origins_append_singleton, List.getElem?_append, h.length_origins] at horigin
  split at horigin
  · next hlt => exact .inl ⟨hlt, horigin⟩
  · next hge =>
    cases hmade : event.origin? with
    | none => simp [hmade] at horigin
    | some made =>
      rw [hmade, Option.toList_some, List.getElem?_singleton] at horigin
      split at horigin
      · exact .inr ⟨by omega, horigin⟩
      · cases horigin

/-- Every handle names a queue that there is, also after a step. -/
theorem Accounted.queueOf_lt_step (h : Accounted events s) (hstep : Step s event s') :
    ∀ handle < s'.handles.length, s'.queueOf handle < s'.queues.length := by
  intro handle hhandle
  rcases Nat.lt_or_ge handle s.handles.length with hlt | hge
  · rw [hstep.queueOf hlt]
    exact Nat.lt_of_lt_of_le (h.queueOf_lt handle hlt) hstep.length_queues
  -- What is left is the handle that the step has made.
  rw [hstep.length_handles] at hhandle
  cases hmade : event.origin? with
  | none => exact absurd hhandle (by simpa [hmade] using hge)
  | some origin =>
    obtain rfl : handle = s.handles.length := by
      rw [hmade, Option.toList_some, List.length_singleton] at hhandle
      omega
    cases origin with
    | none =>
      obtain ⟨hqueue, hlt⟩ := hstep.fresh hmade
      exact hqueue ▸ hlt
    | some other =>
      obtain ⟨hother, hqueue⟩ := hstep.shared hmade
      exact hqueue ▸ Nat.lt_of_lt_of_le (h.queueOf_lt other hother) hstep.length_queues

/-- A step keeps the account. -/
theorem Accounted.step (h : Accounted events s) (hstep : Step s event s') :
    Accounted (events ++ [event]) s' where
  length_origins := by
    rw [origins_append_singleton, List.length_append, h.length_origins, hstep.length_handles]
  queueOf_lt := h.queueOf_lt_step hstep
  handle_lt := by
    intro used hused handle hhandle
    have hle : s.handles.length ≤ s'.handles.length := by simp [hstep.length_handles]
    rcases List.mem_append.1 hused with hused | hused
    · exact Nat.lt_of_lt_of_le (h.handle_lt used hused handle hhandle) hle
    · obtain rfl := List.mem_singleton.1 hused
      exact Nat.lt_of_lt_of_le (hstep.handle_lt handle hhandle) hle
  shared handle other horigin := by
    obtain ⟨hlt, hold⟩ | ⟨rfl, hmade⟩ := h.origins_step horigin
    · obtain ⟨hother, heq⟩ := h.shared handle other hold
      rw [hstep.queueOf hlt, hstep.queueOf (Nat.lt_trans hother hlt)]
      exact ⟨hother, heq⟩
    · obtain ⟨hother, hqueue⟩ := hstep.shared hmade
      exact ⟨hother, (hstep.queueOf hother).trans hqueue.symm⟩
  fresh handle horigin other hother := by
    obtain ⟨hlt, hold⟩ | ⟨rfl, hmade⟩ := h.origins_step horigin
    · rw [hstep.queueOf hlt, hstep.queueOf (Nat.lt_trans hother hlt)]
      exact h.fresh handle hold other hother
    · rw [hstep.queueOf hother, (hstep.fresh hmade).1]
      exact h.queueOf_lt other hother
  balance queue := by
    -- Handles keep their queues, so that those of a queue are the same for all that was done.
    have hall : ∀ used ∈ events ++ [event], ∀ handle ∈ used.handle?,
        (s'.queueOf handle == queue) = (s.queueOf handle == queue) := by
      intro used hmem handle hhandle
      rcases List.mem_append.1 hmem with hused | hused
      · rw [hstep.queueOf (h.handle_lt used hused handle hhandle)]
      · obtain rfl := List.mem_singleton.1 hused
        rw [hstep.queueOf (hstep.handle_lt handle hhandle)]
    have hbalance := h.balance queue
    unfold takenThrough putThrough at hbalance ⊢
    rw [through_filterMap_congr (fun _ _ => Event.handle?_of_taken?) hall,
      through_filterMap_congr (fun _ _ => Event.handle?_of_put?) hall,
      through_filterMap_append_singleton, through_filterMap_append_singleton, List.append_assoc,
      hstep.balance h.queueOf_lt queue, ← List.append_assoc, hbalance]

/-- Every run keeps the account. -/
theorem Run.accounted (h : Run events s) : Accounted events s := by
  induction h with
  | start => exact .start
  | step _ hstep ih => exact ih.step hstep

/-! ## Clones -/

/-- Every handle is a clone of one that was made for a new queue, and names its queue. -/
theorem Accounted.exists_founder (h : Accounted events s) (handle : Nat)
    (hhandle : handle < s.handles.length) :
    ∃ founder, (origins events)[founder]? = some none ∧ Kin events handle founder ∧
      s.queueOf founder = s.queueOf handle := by
  -- By induction on the handle, as a shared handle is younger than the one it was made from.
  induction handle using Nat.strongRecOn with
  | ind handle ih =>
    have hlt : handle < (origins events).length := h.length_origins ▸ hhandle
    cases horigin : (origins events)[handle] with
    | none => exact ⟨handle, List.getElem?_eq_some_iff.2 ⟨hlt, horigin⟩, .refl _, rfl⟩
    | some other =>
      have hshared := List.getElem?_eq_some_iff.2 ⟨hlt, horigin⟩
      obtain ⟨holder, hqueue⟩ := h.shared handle other hshared
      obtain ⟨founder, hfounder, hkin, heq⟩ := ih other holder (Nat.lt_trans holder hhandle)
      exact ⟨founder, hfounder, .trans _ _ _ (.rel _ _ hshared) hkin, heq.trans hqueue⟩

/-- Clones name one queue. -/
theorem Accounted.queueOf_eq_of_kin (h : Accounted events s) (hkin : Kin events other handle) :
    s.queueOf other = s.queueOf handle := by
  induction hkin with
  | rel handle other horigin => exact (h.shared handle other horigin).2.symm
  | refl => rfl
  | symm _ _ _ ih => exact ih.symm
  | trans _ _ _ _ _ ih ih' => exact ih.trans ih'

/-- Two handles name one queue exactly if they are clones of one another. -/
theorem Accounted.queueOf_eq_iff (h : Accounted events s) (hother : other < s.handles.length)
    (hhandle : handle < s.handles.length) :
    s.queueOf other = s.queueOf handle ↔ Kin events other handle := by
  refine ⟨fun hqueue => ?_, h.queueOf_eq_of_kin⟩
  obtain ⟨founder, hfounder, hkin, heq⟩ := h.exists_founder other hother
  obtain ⟨founder', hfounder', hkin', heq'⟩ := h.exists_founder handle hhandle
  have hsame : s.queueOf founder = s.queueOf founder' := by rw [heq, heq', hqueue]
  -- Of two founders the younger one would name a later queue.
  obtain rfl : founder = founder' := by
    rcases Nat.lt_trichotomy founder founder' with hlt | heq | hgt
    · exact absurd hsame (Nat.ne_of_lt (h.fresh founder' hfounder' founder hlt))
    · exact heq
    · exact absurd hsame.symm (Nat.ne_of_lt (h.fresh founder hfounder founder' hgt))
  exact .trans _ _ _ hkin (.symm _ _ hkin')

/-! ## The order of the items -/

/-- Asking for an item fails exactly if there is none, and then with this error. -/
theorem get_eq_error_iff (s : SharedQueues α) (handle : Nat) (e : QueueError) :
    (s.get handle).1 = .error e ↔ e = .empty ∧ s.items handle = [] := by
  unfold SharedQueues.get
  split
  · next hitems => simp [hitems, eq_comm]
  · next hitems => simp [hitems]

/-- Asking for an item gives the oldest one. -/
theorem get_eq_ok_iff (s : SharedQueues α) (handle : Nat) (item : α) :
    (s.get handle).1 = .ok item ↔ (s.items handle)[0]? = some item := by
  unfold SharedQueues.get
  split
  · next hitems => simp [hitems]
  · next hitems => simp [hitems]

/-- What is known of the items that went through a group of handles, of which `handle` is one. -/
structure InOrder (events : List (Event α)) (s : SharedQueues α) (group : Nat → Bool)
    (handle : Nat) : Prop where
  /-- The items taken, followed by those that are left, are the items put, in order. -/
  balance : takenThrough group events ++ s.items handle = putThrough group events
  /-- Each item is taken as the first that is left. -/
  oldest : ∀ item, (s.get handle).1 = .ok item ↔
    (putThrough group events)[(takenThrough group events).length]? = some item
  /-- Asking for an item fails exactly if nothing is left, and then with this error. -/
  drained : ∀ e, (s.get handle).1 = .error e ↔ e = .empty ∧ s.items handle = []
  /-- The size is the number of items put less the number of items taken. -/
  size_eq : (takenThrough group events).length + s.size handle = (putThrough group events).length
  /-- All handles of the group see the same items. -/
  same : ∀ other < s.handles.length, group other → s.items other = s.items handle
  /-- What does not use the group leaves its items as they are. -/
  apart : ∀ event s', Step s event s' → (∀ other ∈ event.handle?, group other = false) →
    s'.items handle = s.items handle

/-- However clients put and take items, share handles and make queues, the items of a handle and its
clones go through in order. -/
theorem first_in_first_out (h : Run events s) (hhandle : handle < s.handles.length)
    (hgroup : ∀ other < s.handles.length, group other ↔ Kin events other handle) :
    InOrder events s group handle := by
  have hacc := h.accounted
  have hqueue : ∀ other < s.handles.length,
      group other = (s.queueOf other == s.queueOf handle) := by
    intro other hother
    rw [Bool.eq_iff_iff, hgroup other hother, beq_iff_eq, hacc.queueOf_eq_iff hother hhandle]
  have hbalance : takenThrough group events ++ s.items handle = putThrough group events := by
    have hused : ∀ used ∈ events, ∀ other ∈ used.handle?,
        group other = (s.queueOf other == s.queueOf handle) :=
      fun used hused other hother => hqueue other (hacc.handle_lt used hused other hother)
    unfold takenThrough putThrough
    rw [through_filterMap_congr (fun _ _ => Event.handle?_of_taken?) hused,
      through_filterMap_congr (fun _ _ => Event.handle?_of_put?) hused]
    exact hacc.balance (s.queueOf handle)
  refine ⟨hbalance, fun item => ?_, get_eq_error_iff s handle, ?_, ?_, ?_⟩
  · rw [get_eq_ok_iff, ← hbalance, List.getElem?_append_right (Nat.le_refl _), Nat.sub_self]
  · rw [← hbalance, List.length_append]
    rfl
  · intro other hother hmem
    rw [hqueue other hother, beq_iff_eq] at hmem
    exact congrArg s.contents hmem
  · intro event s' hstep hapart
    refine (congrArg s'.contents (hstep.queueOf hhandle)).trans
      (hstep.contents hacc.queueOf_lt fun other hother => ?_)
    rw [← hqueue other (hstep.handle_lt other hother)]
    exact hapart other hother

/-- A handle, a clone of it that was made after an item had been put, and one of another queue. -/
theorem first_in_first_out_of_clone :
    let events : List (Event Nat) :=
      [.put 0 5, .share 0, .put 1 3, .addQueue, .put 2 8, .get 1 (.ok 5), .put 0 1]
    let s : SharedQueues Nat := ⟨[[3, 1], [8]], [0, 0, 1]⟩
    let group : Nat → Bool := fun handle => handle < 2
    Run events s ∧ 1 < s.handles.length ∧
      (∀ other < s.handles.length, group other ↔ Kin events other 1) ∧
      InOrder events s group 1 ∧ takenThrough group events = [5] ∧ s.items 1 = [3, 1] := by
  intro events s group
  have hrun : Run events s :=
    Run.start.step (.put 0 5 (by decide)) |>.step (.share 0 (by decide))
      |>.step (.put 1 3 (by decide)) |>.step .addQueue |>.step (.put 2 8 (by decide))
      |>.step (.get 1 (by decide)) |>.step (.put 0 1 (by decide))
  have hgroup : ∀ other < s.handles.length, group other ↔ Kin events other 1 := by
    intro other hother
    rw [← hrun.accounted.queueOf_eq_iff hother (by decide)]
    revert other
    decide
  exact ⟨hrun, by decide, hgroup, first_in_first_out hrun (by decide) hgroup, rfl, rfl⟩

end TraceGen.SharedQueues
