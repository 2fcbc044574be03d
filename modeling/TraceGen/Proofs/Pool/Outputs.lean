import TraceGen.Proofs.Output.Closing
import TraceGen.Proofs.Pool.Faults

/-!
# What a run leaves in its outputs

`Pool.outputs_closed` says what stands in the outputs when a run has ended, whichever way it ended.
Of all that the envelopes received give, a first part has been written and counted, and of what
follows at most a beginning has been written. Every output that closing comes to, and whose flush
works, has passed all of it on to its device.

Closing comes to the performance lines only if the records can be closed. `Pool.unflushed_lines` is
a run whose records cannot be closed and whose performance line stays in its buffer.

That an output only grows, by whole pieces as long as writing works, is proved for one entry
(`Sequential.put_wrote`), from this for the entries of an envelope and for envelopes in a row
(`Sequential.foldlM_take_wrote`), and holds of a run because the supervisor follows the reference.
-/

namespace TraceGen

open TraceGen.Frame

/-! ## Both outputs -/

namespace Entry

/-- Where an entry goes. -/
def outlet : Entry → Outlet
  | .record _ => .records
  | .row _ => .performance

/-- The written form of an entry. -/
def written : Entry → Bytes
  | .record bytes => encode bytes
  | .row r => Text.encode r.line

/-- The written forms of the entries that go to an outlet. -/
def pieces (o : Outlet) (es : List Entry) : List Bytes :=
  (es.filter fun e => e.outlet = o).map written

/-- The pieces of entries in a row. -/
theorem pieces_append (o : Outlet) (es fs : List Entry) :
    pieces o (es ++ fs) = pieces o es ++ pieces o fs := by
  rw [pieces, List.filter_append, List.map_append]
  rfl

end Entry

/-- What becomes of the outputs `s`: the entries `done` have been written and counted, each where it
goes, and of the entries `rest` at most a beginning has been written. -/
def Sinks.Wrote (done rest : List Entry) (s t : Sinks) : Prop :=
  ∀ o a, s.at? o = some a → ∃ b, t.at? o = some b ∧
    TraceGen.Wrote (Entry.pieces o done) (Entry.pieces o rest) a b

namespace Sinks

variable {done more rest : List Entry} {s t u : Sinks}

/-- Nothing has been written yet. -/
theorem Wrote.refl (rest : List Entry) (s : Sinks) : s.Wrote [] rest s :=
  fun _ a ha => ⟨a, ha, TraceGen.Wrote.refl _ a⟩

/-- What is written after whole entries comes after them. -/
theorem Wrote.trans (hst : Wrote done [] s t) (htu : Wrote more rest t u) :
    Wrote (done ++ more) rest s u := by
  intro o a ha
  obtain ⟨b, hb, hab⟩ := hst o a ha
  obtain ⟨c, hc, hbc⟩ := htu o b hb
  refine ⟨c, hc, ?_⟩
  rw [Entry.pieces_append]
  exact hab.trans hbc

/-- Entries that are not written can follow. -/
theorem Wrote.append (h : Wrote done rest s t) (more : List Entry) :
    Wrote done (rest ++ more) s t := by
  intro o a ha
  obtain ⟨b, hb, hab⟩ := h o a ha
  refine ⟨b, hb, ?_⟩
  rw [Entry.pieces_append]
  exact hab.append _

/-- What an entry does to the outlet that it goes to is all that it does. -/
theorem Wrote.of_outlet {e : Entry} (hsplit : done ++ rest = [e])
    (hother : ∀ o, o ≠ e.outlet → t.at? o = s.at? o)
    (hwrote : ∀ a, s.at? e.outlet = some a → ∃ b, t.at? e.outlet = some b ∧
      TraceGen.Wrote (done.map Entry.written) (rest.map Entry.written) a b) :
    s.Wrote done rest t := by
  intro o a ha
  have hone : ∀ x ∈ done ++ rest, x.outlet = e.outlet := by
    rw [hsplit]
    rintro x hx
    rw [List.mem_singleton.1 hx]
  obtain ⟨hdone, hrest⟩ := List.forall_mem_append.1 hone
  by_cases ho : o = e.outlet
  · subst ho
    have hall {es : List Entry} (h : ∀ x ∈ es, x.outlet = e.outlet) :
        Entry.pieces e.outlet es = es.map Entry.written := by
      rw [Entry.pieces, List.filter_eq_self.2 fun x hx => decide_eq_true (h x hx)]
    rw [hall hdone, hall hrest]
    exact hwrote a ha
  · have hnone {es : List Entry} (h : ∀ x ∈ es, x.outlet = e.outlet) : Entry.pieces o es = [] := by
      rw [Entry.pieces, List.filter_eq_nil_iff.2, List.map_nil]
      intro x hx
      rw [h x hx, decide_eq_true_iff]
      exact Ne.symm ho
    rw [hnone hdone, hnone hrest]
    exact ⟨a, (hother o ho).trans ha, .refl [] a⟩

/-- One write to the outlet of an entry, which works or does not. -/
theorem exists_wrote_of_write {e : Entry} {a b : ByteSink × Nat} {works : Bool}
    (ha : s.at? e.outlet = some a) (hb : t.at? e.outlet = some b)
    (hother : ∀ o, o ≠ e.outlet → t.at? o = s.at? o)
    (hwrite : (works = true ∧ TraceGen.Wrote [e.written] [] a b) ∨
      (works = false ∧ TraceGen.Wrote [] [e.written] a b)) :
    ∃ done rest, done ++ rest = [e] ∧ (works = true → rest = []) ∧ s.Wrote done rest t := by
  have hone {done rest : List Entry}
      (h : TraceGen.Wrote (done.map Entry.written) (rest.map Entry.written) a b) :
      ∀ a', s.at? e.outlet = some a' → ∃ b, t.at? e.outlet = some b ∧
        TraceGen.Wrote (done.map Entry.written) (rest.map Entry.written) a' b := by
    intro a' ha'
    obtain rfl := Option.some.inj (ha.symm.trans ha')
    exact ⟨b, hb, h⟩
  rcases hwrite with ⟨-, hwrote⟩ | ⟨rfl, hwrote⟩
  · exact ⟨[e], [], rfl, fun _ => rfl, .of_outlet rfl hother (hone hwrote)⟩
  · exact ⟨[], [e], rfl, by rintro ⟨⟩, .of_outlet rfl hother (hone hwrote)⟩

end Sinks

/-- What an envelope gives to write. -/
def Envelope.entries : Envelope → List Entry
  | .success outcome => Sequential.entries outcome
  | .failure | .fatal _ => []

namespace Sequential

/-- An entry is written and counted, or at most a beginning of it is written. -/
theorem put_wrote (sinks : Sinks) (e : Entry) :
    ∃ done rest, done ++ rest = [e] ∧ ((put sinks e).1.isOk = true → rest = []) ∧
      sinks.Wrote done rest (put sinks e).2 := by
  obtain ⟨records, performance⟩ := sinks
  cases e with
  | record bytes =>
    have hother (r : Option RecordSink) (o : Outlet) (ho : o ≠ .records) :
        Sinks.at? ⟨r, performance⟩ o = Sinks.at? ⟨records, performance⟩ o := by
      cases o with
      | records => exact absurd rfl ho
      | performance => rfl
    cases records with
    | none =>
      exact ⟨[.record bytes], [], rfl, fun _ => rfl, .of_outlet rfl (hother _) (by rintro a ⟨⟩)⟩
    | some w =>
      rcases hwrite : w.write bytes with ⟨result, w'⟩
      have hput : put ⟨some w, performance⟩ (.record bytes) = (result, ⟨some w', performance⟩) := by
        simp only [put, hwrite]
      rw [hput]
      exact Sinks.exists_wrote_of_write rfl rfl (hother _) (w.wrote_write bytes hwrite)
  | row r =>
    have hother (r : Option PerformanceSink) (o : Outlet) (ho : o ≠ .performance) :
        Sinks.at? ⟨records, r⟩ o = Sinks.at? ⟨records, performance⟩ o := by
      cases o with
      | records => rfl
      | performance => exact absurd rfl ho
    cases performance with
    | none => exact ⟨[.row r], [], rfl, fun _ => rfl, .of_outlet rfl (hother _) (by rintro a ⟨⟩)⟩
    | some w =>
      rcases hwrite : w.write r with ⟨result, w'⟩
      have hput : put ⟨records, some w⟩ (.row r) = (result, ⟨records, some w'⟩) := by
        simp only [put, hwrite]
      rw [hput]
      exact Sinks.exists_wrote_of_write rfl rfl (hother _) (w.wrote_write r hwrite)

/-- Entries are written and counted up to some place, and of the others at most a beginning is
written. -/
theorem putAll_wrote (sinks : Sinks) (es : List Entry) :
    ∃ done rest, done ++ rest = es ∧ ((putAll sinks es).1.isOk = true → rest = []) ∧
      sinks.Wrote done rest (putAll sinks es).2 := by
  -- By induction on the entries. After a write that fails all others are left over.
  induction es generalizing sinks with
  | nil => exact ⟨[], [], rfl, fun _ => rfl, .refl [] sinks⟩
  | cons e es ih =>
    obtain ⟨done, rest, hsplit, hwhole, hwrote⟩ := put_wrote sinks e
    unfold putAll
    rcases hput : put sinks e with ⟨result, sinks'⟩
    rw [hput] at hwhole hwrote
    cases result with
    | error cause =>
      refine ⟨done, rest ++ es, ?_, by rintro ⟨⟩, hwrote.append es⟩
      rw [← List.append_assoc, hsplit]
      rfl
    | ok u =>
      obtain rfl := hwhole rfl
      rw [List.append_nil] at hsplit
      subst hsplit
      obtain ⟨done, rest, rfl, hwhole', hwrote'⟩ := ih sinks'
      exact ⟨[e] ++ done, rest, rfl, hwhole', hwrote.trans hwrote'⟩

/-- The outputs where the reference stands: after the envelopes that it took, or where it stopped.
-/
def outputs : Except (PoolError × Sinks) (Summary × Sinks) → Sinks
  | .error stop => stop.2
  | .ok st => st.2

/-- The entries of an envelope are written and counted up to some place. -/
theorem take_wrote (st : Summary × Sinks) (e : Envelope) :
    ∃ done rest, done ++ rest = e.entries ∧ ((take st e).isOk = true → rest = []) ∧
      st.2.Wrote done rest (outputs (take st e)) := by
  cases e with
  | fatal fault => exact ⟨[], [], rfl, fun _ => rfl, .refl [] st.2⟩
  | failure => exact ⟨[], [], rfl, fun _ => rfl, .refl [] st.2⟩
  | success outcome =>
    obtain ⟨done, rest, hsplit, hwhole, hwrote⟩ := putAll_wrote st.2 (entries outcome)
    rcases hput : putAll st.2 (entries outcome) with ⟨result, sinks⟩
    rw [hput] at hwhole hwrote
    cases result with
    | error cause =>
      have htake : take st (.success outcome) = .error (.sink cause, sinks) := by
        simp only [take, hput]
      rw [htake]
      exact ⟨done, rest, hsplit, by rintro ⟨⟩, hwrote⟩
    | ok u =>
      have htake : take st (.success outcome) =
          .ok (st.1.addSuccess (recordsWritten st.2 outcome), sinks) := by
        simp only [take, hput]
      rw [htake]
      exact ⟨done, rest, hsplit, fun _ => hwhole rfl, hwrote⟩

/-- The entries of envelopes in a row are written and counted up to some place, which is the end
unless the reference stops. -/
theorem foldlM_take_wrote (st : Summary × Sinks) (es : List Envelope) :
    ∃ done rest, done ++ rest = es.flatMap Envelope.entries ∧
      ((es.foldlM take st).isOk = true → rest = []) ∧
      st.2.Wrote done rest (outputs (es.foldlM take st)) := by
  -- By induction on the envelopes. Entries are left over only where the reference stops.
  induction es generalizing st with
  | nil => exact ⟨[], [], rfl, fun _ => rfl, .refl [] st.2⟩
  | cons e es ih =>
    obtain ⟨done, rest, hsplit, hwhole, hwrote⟩ := take_wrote st e
    rw [List.foldlM_cons, List.flatMap_cons, ← hsplit]
    cases htake : take st e with
    | error stop =>
      rw [htake] at hwrote
      refine ⟨done, rest ++ es.flatMap Envelope.entries, ?_, by rintro ⟨⟩, hwrote.append _⟩
      rw [List.append_assoc]
    | ok st' =>
      rw [htake] at hwhole hwrote
      obtain rfl := hwhole rfl
      obtain ⟨done', rest, hsplit', hwhole', hwrote'⟩ := ih st'
      refine ⟨done ++ done', rest, ?_, hwhole', hwrote.trans hwrote'⟩
      rw [List.append_assoc, hsplit', List.append_nil]

/-- A reference that ends well has taken all envelopes and has closed the outputs without an
error. -/
theorem close_of_run {work : Nat} {sinks closed : Sinks} {es : List Envelope}
    {result : Except PoolError Summary} (h : run work sinks es = (result, closed))
    (hok : result.isOk = true) :
    (takeAll work sinks es).isOk = true ∧
      (outputs (takeAll work sinks es)).close.1.isOk = true := by
  unfold run at h
  cases htake : takeAll work sinks es with
  | error stop =>
    rw [htake] at h
    cases h
    cases hok
  | ok st =>
    rw [htake] at h
    refine ⟨rfl, ?_⟩
    rcases hclose : st.2.close with ⟨result', closed'⟩
    simp only [conclude, hclose] at h
    cases result' with
    | error cause =>
      cases h
      cases hok
    | ok u =>
      rw [outputs, hclose]
      rfl

end Sequential

namespace Pool

variable {σ : Type} {s : WorkerSetup σ} {p q : Pool σ} {calls more : List Collection} {n : Nat}
  {modules : List LoadedModule} {sinks : Sinks} {world : σ}

/-! ## The end of a run -/

/-- The next action of the supervisor closes the outputs. -/
def IsClosing (p : Pool σ) : Prop :=
  (∃ cause, p.supervision = .aborting cause) ∨ ∃ summary, p.supervision = .finalizing summary

/-- The supervisor has closed the outputs. -/
def HasClosed (p : Pool σ) : Prop :=
  (∃ summary, p.supervision = .joining summary) ∨ ∃ result, p.supervision = .finished result

/-- Acting on an envelope closes nothing. -/
theorem not_hasClosed_integrate (p : Pool σ) (k : Nat) (summary : Summary) (e : Envelope) :
    ¬ (p.integrate k summary e).HasClosed := by
  cases e with
  | fatal | failure => rintro (⟨_, ⟨⟩⟩ | ⟨_, ⟨⟩⟩)
  | success outcome =>
    unfold integrate
    dsimp only
    split <;> rintro (⟨_, ⟨⟩⟩ | ⟨_, ⟨⟩⟩)

/-- The outputs are closed once, by an action of a supervisor who receives nothing at that time. -/
theorem Step.hasClosed (h : Step s p calls q) (hq : q.HasClosed) :
    (p.HasClosed ∧ q.sinks = p.sinks ∧ q.envelopes = p.envelopes) ∨
      (p.IsClosing ∧ q.sinks = p.sinks.close.2 ∧ q.envelopes = p.envelopes) := by
  cases h with
  | work => exact .inl ⟨hq, rfl, rfl⟩
  | supervise hstep =>
    cases hstep with
    | complete | strand => rcases hq with ⟨_, hs⟩ | ⟨_, hs⟩ <;> cases hs
    | receive => exact absurd hq (not_hasClosed_integrate _ _ _ _)
    | giveUp hs => exact .inr ⟨.inl ⟨_, hs⟩, rfl, rfl⟩
    | spoil hs | close hs => exact .inr ⟨.inr ⟨_, hs⟩, rfl, rfl⟩
    | join hs => exact .inl ⟨.inl ⟨_, hs⟩, rfl, rfl⟩

/-- A run that has closed its outputs has come to a pool whose supervisor does that next. -/
theorem Run.exists_closing (h : Run s p calls q) (hp : ¬ p.HasClosed) (hq : q.HasClosed) :
    ∃ earlier r later, Run s p earlier r ∧ Run s r later q ∧ r.IsClosing ∧
      q.sinks = r.sinks.close.2 ∧ q.envelopes = r.envelopes := by
  -- From the end of the run back to the one action after which the outputs are closed.
  induction h with
  | start => exact absurd hq hp
  | @next calls t q a h hr ih =>
    have hlast : Run s t (t.callsOf s a) q := by simpa using Run.next .start hr
    rcases (step_iff.2 ⟨a, hr, rfl⟩).hasClosed hq with
      ⟨ht, hsinks, hreceived⟩ | ⟨ht, hsinks, hreceived⟩
    · obtain ⟨earlier, r, later, hearlier, hlater, hclosing, hrsinks, hrreceived⟩ := ih ht
      exact ⟨earlier, r, later ++ t.callsOf s a, hearlier, hlater.trans hlast, hclosing,
        hsinks.trans hrsinks, hreceived.trans hrreceived⟩
    · exact ⟨calls, t, t.callsOf s a, h, hlast, ht, hsinks, hreceived⟩

/-- A supervisor who is about to close the outputs has them as the reference has them. -/
theorem Run.outputs_eq (h : Run s (.start n modules sinks world) calls p) (hn : 0 < n)
    (hp : p.IsClosing) :
    p.sinks = Sequential.outputs (Sequential.takeAll modules.length sinks p.envelopes) := by
  cases h.follows hn with
  | aborting hs hd | finalizing hs hd => rw [hd]; rfl
  | draining hs | joining hs | finished hs =>
    rcases hp with ⟨_, hs'⟩ | ⟨_, hs'⟩ <;> cases hs.symm.trans hs'

/-- Closing outputs reports an error exactly if closing one of them fails by itself. A run of any
number of workers in any order of actions that has ended, in whichever way, has come to a pool `r`
that closes its outputs, and an error of closing is not passed over by a good end. Of all that the
received envelopes give, the entries `done` have then been written and counted, each where it goes,
and of the others at most a beginning has been written; after a good end there are no others. Each
output that closing comes to, and whose flush works, has passed all this on to its device, has been
flushed, and has been shut down if that works; one whose flush fails stays as the flush left it.
Closing comes to the records in any case, and to the performance lines if the records can be closed;
otherwise the lines stay as they were. -/
theorem outputs_closed (hn : 0 < n) (h : Run s (.start n modules sinks world) calls p)
    {result : Except PoolError Summary} (hr : p.result? = some result) :
    (∀ t : Sinks,
      (t.close.1.isOk = true ↔ ∀ o w, t.at? o = some w → w.1.close.1 = true) ∧
      ∀ o, (t.Reaches o → t.close.2.at? o = (t.at? o).map fun w => (w.1.close.2, w.2)) ∧
        (¬ t.Reaches o → t.close.2.at? o = t.at? o)) ∧
    ∃ (r : Pool σ) (earlier later : List Collection) (done rest : List Entry),
      Run s (.start n modules sinks world) earlier r ∧ Run s r later p ∧ r.IsClosing ∧
      p.sinks = r.sinks.close.2 ∧
      (result.isOk = true → r.sinks.close.1.isOk = true ∧ rest = []) ∧
      done ++ rest = p.envelopes.flatMap Envelope.entries ∧
      ∀ o a, sinks.at? o = some a →
        ∃ b c, r.sinks.at? o = some b ∧ p.sinks.at? o = some c ∧
          Wrote (Entry.pieces o done) (Entry.pieces o rest) a c ∧
          (r.sinks.Reaches o → (b.1.flush.1 = true → b.1.ClosedAs c.1) ∧
            (b.1.flush.1 = false → c.1 = b.1.flush.2)) ∧
          (¬ r.sinks.Reaches o → c = b) := by
  refine ⟨Sinks.close_spec, ?_⟩
  have hopen : ¬ (Pool.start n modules sinks world).HasClosed := by
    rintro (⟨_, ⟨⟩⟩ | ⟨_, ⟨⟩⟩)
  have hclosed : p.HasClosed := by
    unfold result? at hr
    cases hs : p.supervision with
    | finished result' => exact .inr ⟨result', hs⟩
    | draining | aborting | finalizing | joining =>
      rw [hs] at hr
      cases hr
  obtain ⟨earlier, r, later, hearlier, hlater, hclosing, hsinks, henvelopes⟩ :=
    h.exists_closing hopen hclosed
  -- Nothing is received from `r` on, so that the reference has come to the outputs of `r` with all
  -- the envelopes of the run.
  have houtputs := hearlier.outputs_eq hn hclosing
  rw [← henvelopes] at houtputs
  obtain ⟨done, rest, hsplit, hwhole, hwrote⟩ :=
    Sequential.foldlM_take_wrote (.start modules.length, sinks) p.envelopes
  rw [← Sequential.takeAll] at hwhole hwrote
  rw [← houtputs] at hwrote
  refine ⟨r, earlier, later, done, rest, hearlier, hlater, hclosing, hsinks, fun hok => ?_, hsplit,
    fun o a ha => ?_⟩
  · obtain ⟨htaken, hclose⟩ := Sequential.close_of_run (h.run_eq hn hr).1 hok
    rw [← houtputs] at hclose
    exact ⟨hclose, hwhole htaken⟩
  · obtain ⟨b, hb, hcount, part, hpart, hreceived⟩ := hwrote o a ha
    obtain ⟨c, hc, hkept, hcounted, hreached, hpassed⟩ := Sinks.at?_close hb
    rw [← hsinks] at hc
    rw [← hkept] at hreceived
    exact ⟨b, c, hb, hc, ⟨hcounted.trans hcount, part, hpart, hreceived⟩, hreached, hpassed⟩

/-- A run that ends badly because its performance log cannot be shut down. Its records are on their
device all the same. -/
theorem outputs_closed_of_failing_shutdown :
    ∃ (sinks : Sinks) (calls : List Collection) (p : Pool Unit) (done rest : List Entry)
        (c : ByteSink × Nat),
      Run (Sample.setup (.ok none)) (.start 1 [Sample.loaded "a" []] sinks ()) calls p ∧
      p.result? = some (.error (.sink (.io ""))) ∧
      done ++ rest = [.record [1, 2]] ∧ p.sinks.at? .records = some c ∧
      Wrote (Entry.pieces .records done) (Entry.pieces .records rest) (ByteSink.file, 0) c ∧
      c.1.content = encode [1, 2] ∧ c.1.isFlushed = true ∧ c.1.isShutDown = true := by
  let sinks : Sinks :=
    ⟨some (.start .file), some (.start { ByteSink.file with shutdownWorks := false })⟩
  let schedule : List Actor :=
    List.replicate 4 (.worker 0) ++ [.supervisor, .supervisor, .supervisor]
  obtain ⟨calls, p, w, hplay, hr, henvelopes, hrecords, hcontent, hflushed, hshut⟩ :
      ∃ calls p w, (Pool.start 1 [Sample.loaded "a" []] sinks ()).play (Sample.setup (.ok none))
          schedule = some (calls, p) ∧ p.result? = some (.error (.sink (.io ""))) ∧
        p.envelopes.flatMap Envelope.entries = [.record [1, 2]] ∧ p.sinks.at? .records = some w ∧
        w.1.content = encode [1, 2] ∧ w.1.isFlushed = true ∧ w.1.isShutDown = true :=
    ⟨_, _, _, rfl, rfl, rfl, rfl, rfl, rfl, rfl⟩
  have hrun := run_iff_exists_play.2 ⟨schedule, hplay⟩
  obtain ⟨-, r, earlier, later, done, rest, -, -, -, -, -, hsplit, hwrote⟩ :=
    outputs_closed (by decide) hrun hr
  obtain ⟨b, c, -, hc, hwrote, -, -⟩ := hwrote .records (.file, 0) rfl
  obtain rfl := Option.some.inj (hrecords.symm.trans hc)
  exact ⟨sinks, calls, p, done, rest, w, hrun, hr, hsplit.trans henvelopes, hrecords, hwrote,
    hcontent, hflushed, hshut⟩

/-! ## A line that stays in its buffer -/

namespace Sample

/-- The line of the module `a` and its key `main`. -/
def line : PerformanceRow :=
  ⟨"a", "main", .start 0⟩

/-- A collector that gives one record and one line. -/
def measuring : Collector Unit := fun _ _ _ _ world =>
  (.data ⟨[⟨"main", [1, 2], 0, 0⟩], KeyMap.empty.insert "main" line.stat, 0⟩, world)

/-- A full device behind a buffer. -/
def full : ByteSink :=
  { ByteSink.file with limit := some 0 }

/-- A working device behind a buffer with room for a line. -/
def roomy : ByteSink :=
  { ByteSink.plain with capacity := (Text.encode line.line).length + 1 }

/-- A line goes into the buffer, whatever its length. -/
theorem write_line : (PerformanceSink.start roomy).write line =
    (.ok (), ⟨{ roomy with pending := Text.encode line.line }, 1⟩) := by
  refine PerformanceSink.write_of_fits ?_
  show 0 + _ < _ + 1
  omega

end Sample

/-- A run whose records do not fit on their device. Their sink cannot be closed, and the line that
was counted stays in its buffer, although its device could be flushed and shut down. -/
theorem unflushed_lines :
    ∃ (calls : List Collection) (p : Pool Unit) (w : PerformanceSink),
      Run ⟨Sample.measuring, fun _ => .ok none, none⟩ (.start 1 [Sample.loaded "a" []]
        ⟨some (.start Sample.full), some (.start Sample.roomy)⟩ ()) calls p ∧
      p.result? = some (.error (.sink (.io ""))) ∧ p.sinks.performance = some w ∧
      w.lines = 1 ∧ w.sink.close.1 = true ∧ w.sink.pending = Text.encode Sample.line.line ∧
      w.sink.content = [] ∧ w.sink.isFlushed = false ∧ w.sink.isShutDown = false := by
  let s : WorkerSetup Unit := ⟨Sample.measuring, fun _ => .ok none, none⟩
  let sinks : Sinks := ⟨some (.start Sample.full), some (.start Sample.roomy)⟩
  let written : Sinks :=
    ⟨some ⟨{ Sample.full with pending := encode [1, 2] }, 1⟩,
      some ⟨{ Sample.roomy with pending := Text.encode Sample.line.line }, 1⟩⟩
  let outcome : ModuleOutcome := ⟨"a", [[1, 2]], KeyMap.empty.insert "main" Sample.line.stat⟩
  have hrows : Sinks.writeRows (.start Sample.roomy) (Sinks.rowsOf outcome) =
      (.ok (), ⟨{ Sample.roomy with pending := Text.encode Sample.line.line }, 1⟩) := by
    show Sinks.writeRows (.start Sample.roomy) [Sample.line] = _
    rw [Sinks.writeRows, Sample.write_line]
    rfl
  have hwrite : sinks.writeOutcome outcome = (.ok 1, written) := by
    have hrecords : sinks.writeModuleRecords outcome =
        (.ok 1, ⟨written.records, some (.start Sample.roomy)⟩) := rfl
    unfold Sinks.writeOutcome
    rw [hrecords]
    simp only [Sinks.writeModuleRows, hrows]
    rfl
  -- The worker sends its envelope, the supervisor writes and counts what it gives, and then it
  -- cannot close the records.
  let parcel : Parcel := ⟨some (Sample.loaded "a" []), .success outcome⟩
  obtain ⟨calls, p, hplay, hitems, hsinks, hsupervision⟩ : ∃ calls p,
      (Pool.start 1 [Sample.loaded "a" []] sinks ()).play s (List.replicate 4 (.worker 0)) =
        some (calls, p) ∧ p.shared.channel.items = [parcel] ∧ p.sinks = sinks ∧
      p.supervision = .draining 0 (.start 1) :=
    ⟨_, _, rfl, rfl, rfl, rfl⟩
  let q : Pool Unit :=
    { p.received parcel [] with
      sinks := written
      supervision := .draining 1 ((Summary.start 1).addSuccess 1) }
  have hq : (p.received parcel []).integrate 0 (.start 1) (.success outcome) = q := by
    simp only [integrate, received, hsinks, hwrite, q]
  have hreceive : p.step s .supervisor = some q := by
    rw [← hq]
    exact supervise_eq_some_iff.2 (.receive hsupervision (by decide) hitems)
  obtain ⟨r, hclose, hr, hperformance⟩ : ∃ r, q.play s [.supervisor, .supervisor] = some ([], r) ∧
      r.result? = some (.error (.sink (.io ""))) ∧ r.sinks.performance = written.performance :=
    ⟨_, rfl, rfl, rfl⟩
  have hrun := (Run.next (run_iff_exists_play.2 ⟨_, hplay⟩) hreceive).trans
    (run_iff_exists_play.2 ⟨_, hclose⟩)
  have hworks : ({ Sample.roomy with pending := Text.encode Sample.line.line } : ByteSink).close.1 =
      true := by
    rw [ByteSink.close_fst, ByteSink.flush_of_unlimited rfl rfl]
    rfl
  exact ⟨_, r, _, hrun, hr, hperformance, rfl, hworks, rfl, rfl, rfl, rfl⟩

end Pool

end TraceGen
