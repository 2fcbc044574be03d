import TraceGen.Output.Sinks
import TraceGen.Proofs.Output.Writing

/-!
# Closing the outputs

A run has two outlets, one for records and one for performance lines, and `Sinks.at?` is what stands
behind an outlet: a sink of bytes and the number of pieces counted there. `Sinks.close_spec` says
what closing does to each outlet. The records are closed in any case and the performance lines
unless closing the records failed; an error is reported exactly if closing one of the two fails by
itself.

Closing a sink whose flush works passes on all that it has taken over (`ByteSink.closedAs_close`),
whether or not the device can be shut down after that. A sink whose flush fails is not shut down
(`ByteSink.close_of_not_flush`).
-/

namespace TraceGen

/-! ## One sink -/

namespace ByteSink

variable {s : ByteSink}

/-- An empty buffer can be emptied, which leaves the sink as it is. -/
theorem drain_of_empty (h : s.pending = []) : s.drain = (true, s) := by
  have hnone : s.admitted 0 = 0 := by
    unfold admitted
    split
    · rfl
    · exact Nat.zero_min _
  unfold drain
  simp only [h, List.length_nil, hnone, List.take_nil, List.drop_nil, List.append_nil,
    List.isEmpty_nil, Bool.and_true, beq_self_eq_true]
  rw [← h]

/-- What closing makes of a sink `s` whose flush works. -/
structure ClosedAs (s t : ByteSink) : Prop where
  /-- All that was taken over has reached the device. -/
  content : t.content = s.received
  /-- Nothing is left in the buffer. -/
  pending : t.pending = []
  /-- The device has been flushed. -/
  isFlushed : t.isFlushed = true
  /-- It has also been shut down if that works. -/
  isShutDown : s.shutdownWorks = true → t.isShutDown = true

/-- A flush that works passes on all bytes. -/
theorem flush_spec (h : s.flush.1 = true) :
    s.flush.2.content = s.received ∧ s.flush.2.pending = [] ∧ s.flush.2.isFlushed = true ∧
      s.flush.2.shutdownWorks = s.shutdownWorks := by
  unfold flush at h ⊢
  have hworks : s.drain.2.shutdownWorks = s.shutdownWorks := rfl
  rcases hdrain : s.drain with ⟨drained, t⟩
  rw [hdrain] at h hworks
  simp only at h ⊢
  cases hboth : drained && t.flushWorks with
  | false =>
    rw [hboth] at h
    cases h
  | true =>
    obtain ⟨rfl, -⟩ := Bool.and_eq_true_iff.1 hboth
    obtain ⟨hcontent, hpending, -⟩ := drain_spec hdrain
    exact ⟨hcontent, hpending, rfl, hworks⟩

/-- A device without limit that can be flushed takes what is in the buffer. -/
theorem flush_of_unlimited (hlimit : s.limit = none) (hworks : s.flushWorks = true) :
    s.flush.1 = true := by
  obtain ⟨t, hdrain⟩ := exists_drain_of_unlimited hlimit
  have hsame : s.drain.2.flushWorks = s.flushWorks := rfl
  rw [hdrain, hworks] at hsame
  replace hsame : t.flushWorks = true := hsame
  unfold flush
  rw [hdrain]
  simp only [hsame, Bool.and_self, if_true]

/-- Closing a sink is shutting it down after a flush that works. -/
theorem close_of_flush (h : s.flush.1 = true) : s.close = s.flush.2.shutdown := by
  unfold close
  rcases hflush : s.flush with ⟨flushed, t⟩
  rw [hflush] at h
  rw [show flushed = true from h]
  rfl

/-- Closing a sink goes no further than a flush that fails. -/
theorem close_of_not_flush (h : s.flush.1 = false) : s.close = (false, s.flush.2) := by
  unfold close
  rcases hflush : s.flush with ⟨flushed, t⟩
  rw [hflush] at h
  rw [show flushed = false from h]
  rfl

/-- Closing works if the flush works and the device can be shut down. -/
theorem close_fst (s : ByteSink) : s.close.1 = (s.flush.1 && s.shutdownWorks) := by
  cases hflush : s.flush.1 with
  | false =>
    rw [close_of_not_flush hflush]
    rfl
  | true =>
    obtain ⟨-, hpending, -, hworks⟩ := flush_spec hflush
    rw [close_of_flush hflush, shutdown, drain_of_empty hpending]
    simp only [Bool.true_and, hworks]
    cases s.shutdownWorks <;> rfl

/-- A flush loses no byte, also where it fails. -/
theorem received_flush (s : ByteSink) : s.flush.2.received = s.received := by
  rw [← received_drain s]
  unfold flush
  rcases s.drain with ⟨drained, t⟩
  dsimp only
  split <;> rfl

/-- Shutting a device down loses no byte, also where it fails. -/
theorem received_shutdown (s : ByteSink) : s.shutdown.2.received = s.received := by
  rw [← received_drain s]
  unfold shutdown
  rcases s.drain with ⟨drained, t⟩
  dsimp only
  split <;> rfl

/-- Closing a sink loses no byte, also where it fails. -/
theorem received_close (s : ByteSink) : s.close.2.received = s.received := by
  rw [← received_flush s]
  unfold close
  rcases s.flush with ⟨flushed, t⟩
  dsimp only
  split
  · exact received_shutdown t
  · rfl

/-- Closing a sink whose flush works passes on all that it has taken over. -/
theorem closedAs_close (h : s.flush.1 = true) : s.ClosedAs s.close.2 := by
  obtain ⟨hcontent, hpending, hflushed, hworks⟩ := flush_spec h
  rw [close_of_flush h, shutdown, drain_of_empty hpending]
  simp only [Bool.true_and, hworks]
  by_cases hshutdown : s.shutdownWorks = true
  · rw [if_pos hshutdown]
    exact ⟨hcontent, hpending, rfl, fun _ => rfl⟩
  · rw [if_neg hshutdown]
    exact ⟨hcontent, hpending, hflushed, fun hworks => absurd hworks hshutdown⟩

end ByteSink

/-! ## Both sinks -/

/-- One of the two outputs of a run. -/
inductive Outlet where
  /-- The training records. -/
  | records
  /-- The performance lines. -/
  | performance
deriving DecidableEq

namespace Sinks

/-- The sink behind an outlet, with the number of pieces that are counted there. -/
def at? (s : Sinks) : Outlet → Option (ByteSink × Nat)
  | .records => s.records.map fun w => (w.sink, w.written)
  | .performance => s.performance.map fun w => (w.sink, w.lines)

/-- Closing the outputs comes to an outlet: always to the records, and to the performance lines if
there is no sink of records or closing it works. -/
def Reaches (s : Sinks) : Outlet → Prop
  | .records => True
  | .performance => ∀ w, s.at? .records = some w → w.1.close.1 = true

/-- Closing the records works if closing their sink works. -/
theorem isOk_closeRecords (s : Sinks) :
    s.closeRecords.1.isOk = true ↔ ∀ w, s.at? .records = some w → w.1.close.1 = true := by
  unfold closeRecords at?
  cases s.records with
  | none => simp [Except.isOk, Except.toBool]
  | some w =>
    simp only [RecordSink.close, Option.map_some, Option.some.injEq, forall_eq']
    cases w.sink.close.1 <;> simp [Except.isOk, Except.toBool]

/-- Closing the performance lines works if closing their sink works. -/
theorem isOk_closePerformance (s : Sinks) :
    s.closePerformance.1.isOk = true ↔ ∀ w, s.at? .performance = some w → w.1.close.1 = true := by
  unfold closePerformance at?
  cases s.performance with
  | none => simp [Except.isOk, Except.toBool]
  | some w =>
    simp only [PerformanceSink.close, Option.map_some, Option.some.injEq, forall_eq']
    cases w.sink.close.1 <;> simp [Except.isOk, Except.toBool]

/-- Closing the records closes their sink and leaves the performance lines alone. -/
theorem closeRecords_snd (s : Sinks) :
    s.closeRecords.2.at? .records = ((s.at? .records).map fun w => (w.1.close.2, w.2)) ∧
      s.closeRecords.2.at? .performance = s.at? .performance := by
  obtain ⟨records, performance⟩ := s
  cases records <;> exact ⟨rfl, rfl⟩

/-- Closing the performance lines closes their sink and leaves the records alone. -/
theorem closePerformance_snd (s : Sinks) :
    s.closePerformance.2.at? .performance =
        ((s.at? .performance).map fun w => (w.1.close.2, w.2)) ∧
      s.closePerformance.2.at? .records = s.at? .records := by
  obtain ⟨records, performance⟩ := s
  cases performance <;> exact ⟨rfl, rfl⟩

/-- Closing the outputs works exactly if closing each of them works. It closes those that it comes
to and leaves the others alone. -/
theorem close_spec (s : Sinks) :
    (s.close.1.isOk = true ↔ ∀ o w, s.at? o = some w → w.1.close.1 = true) ∧
      ∀ o, (s.Reaches o → s.close.2.at? o = (s.at? o).map fun w => (w.1.close.2, w.2)) ∧
        (¬ s.Reaches o → s.close.2.at? o = s.at? o) := by
  have hrecords := s.isOk_closeRecords
  obtain ⟨hclosed, hkept⟩ := s.closeRecords_snd
  unfold close
  rcases hfirst : s.closeRecords with ⟨result, t⟩
  rw [hfirst] at hrecords hclosed hkept
  simp only at hrecords hclosed hkept
  cases result with
  | error e =>
    -- The records cannot be closed, and the performance lines stay as they are.
    refine ⟨⟨fun h => ?_, fun h => hrecords.2 (h .records)⟩, fun o => ?_⟩
    · cases h
    · cases o with
      | records => exact ⟨fun _ => hclosed, fun h => absurd trivial h⟩
      | performance =>
        refine ⟨fun h => ?_, fun _ => hkept⟩
        have hok := hrecords.2 h
        cases hok
  | ok u =>
    have hworks := hrecords.1 rfl
    have hperformance := t.isOk_closePerformance
    obtain ⟨hclosed', hkept'⟩ := t.closePerformance_snd
    rw [hkept] at hperformance hclosed'
    refine ⟨?_, fun o => ?_⟩
    · constructor
      · intro h o w hw
        cases o with
        | records => exact hworks w hw
        | performance => exact hperformance.1 h w hw
      · exact fun h => hperformance.2 (h .performance)
    · cases o with
      | records => exact ⟨fun _ => hkept'.trans hclosed, fun h => absurd trivial h⟩
      | performance => exact ⟨fun _ => hclosed', fun h => absurd hworks h⟩

/-- What one output has become when closing has come to it or has not. -/
theorem at?_close {s : Sinks} {o : Outlet} {b : ByteSink × Nat} (hb : s.at? o = some b) :
    ∃ c, s.close.2.at? o = some c ∧ c.1.received = b.1.received ∧ c.2 = b.2 ∧
      (s.Reaches o → (b.1.flush.1 = true → b.1.ClosedAs c.1) ∧
        (b.1.flush.1 = false → c.1 = b.1.flush.2)) ∧
      (¬ s.Reaches o → c = b) := by
  obtain ⟨hreached, hkept⟩ := s.close_spec.2 o
  by_cases ho : s.Reaches o
  · refine ⟨(b.1.close.2, b.2), ?_, b.1.received_close, rfl,
      fun _ => ⟨ByteSink.closedAs_close, fun hfailed => ?_⟩, fun hnot => absurd ho hnot⟩
    · rw [hreached ho, hb]
      rfl
    · rw [ByteSink.close_of_not_flush hfailed]
  · exact ⟨b, (hkept ho).trans hb, rfl, rfl, fun h => absurd h ho, fun _ => rfl⟩

end Sinks

end TraceGen
