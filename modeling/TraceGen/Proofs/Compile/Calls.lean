import TraceGen.Proofs.Compile.Rows
import TraceGen.Proofs.Corpus.Inputs
import TraceGen.Proofs.Text.Replacing

/-!
# How the compiler is called

Which compiles a module needs is known beforehand (`CompileRunner.plan`): one without a policy where
no baselines are given, and one with the policy, unless there is none and the first compile serves
for both. `Invocation.inTurn` lists the compiles that are begun of those planned, which end with the
first one that fails.

`CompileRunner.compiler_called_as_planned` says that collecting data begins these compiles and no
others, which of them call the compiler, and with which arguments. The compiler is called exactly if
the machine provides for it (`Invocation.Launches`): a scratch folder that the inputs can be written
to, a compiler at its path, and arguments without a NUL. A compile with a policy has the arguments
of one without, and behind them those that name the policy (`Invocation.arguments_some`).
-/

namespace TraceGen

/-- Launching a compiler records its arguments and leaves the rest of the machine but its disk. -/
theorem Host.launch_spec (h : Host) (path : Path) (args : List String) (logPath : Path) :
    (h.launch path args logPath).2.compiles = h.compiles ∧
      (h.launch path args logPath).2.scratch = h.scratch ∧
      (h.launch path args logPath).2.runs =
        bif (h.launch path args logPath).1.isSome then args :: h.runs else h.runs := by
  unfold launch
  cases h.compiler? path with
  | none => exact ⟨rfl, rfl, rfl⟩
  | some compiler =>
    dsimp only
    split
    · exact ⟨rfl, rfl, rfl⟩
    · exact ⟨rfl, rfl, rfl⟩

namespace Invocation

variable {i : Invocation} {m : LoadedModule} {policy : Option Policy} {h : Host}

/-! ## The arguments -/

/-- A policy adds arguments at the end. -/
theorem arguments_some (i : Invocation) (m : LoadedModule) (p : Policy) (folder : Path) :
    i.argumentsIn m (some p) folder = i.argumentsIn m none folder ++
      i.policyFlags.map (Text.replaceAll policyPlaceholder p.path) := by
  unfold argumentsIn arguments
  rw [List.append_nil]

/-- Flags with a text in the place of every occurrence of a placeholder. -/
def Filled (placeholder text : String) (flags args : List String) : Prop :=
  List.Forall₂ (fun flag arg =>
    Text.Replaced placeholder.toList text.toList flag.toList arg.toList) flags args

/-- Substituting in all flags fills them. -/
theorem filled_map {placeholder : String} (hplaceholder : placeholder.toList ≠ []) (text : String)
    (flags : List String) :
    Filled placeholder text flags (flags.map (Text.replaceAll placeholder text)) := by
  unfold Filled
  rw [List.forall₂_map_right_iff]
  exact List.forall₂_same.2 fun flag _ => Text.replaced_replaceAll hplaceholder text flag

/-- What stands in the arguments of a compile: the options of the module, the output, the flags for
the training log, and the flags for the policy if there is one. -/
theorem argumentsIn_spec (i : Invocation) (m : LoadedModule) (policy : Option Policy)
    (folder : Path) :
    ∃ logArgs policyArgs,
      i.argumentsIn m policy folder =
        m.resolved folder ++ ["-o", Path.join folder outputName] ++ logArgs ++ policyArgs ∧
      Filled logPlaceholder (Path.join folder logName) i.logFlags logArgs ∧
      (policy = none → policyArgs = []) ∧
      ∀ p, policy = some p → Filled policyPlaceholder p.path i.policyFlags policyArgs ∧
        i.argumentsIn m policy folder = i.argumentsIn m none folder ++ policyArgs := by
  refine ⟨_, _, rfl, filled_map (by decide) _ _, ?_, ?_⟩
  · rintro rfl
    rfl
  · rintro p rfl
    exact ⟨filled_map (by decide) _ _, i.arguments_some m p folder⟩

/-! ## One compile -/

/-- A compile takes the next scratch folder, and if the compiler is launched then with the arguments
of the compile. -/
theorem compile_host (i : Invocation) (m : LoadedModule) (policy : Option Policy) (h : Host) :
    (i.compile m policy h).2.compiles = h.compiles + 1 ∧
      (i.compile m policy h).2.scratch = h.scratch ∧
      (i.compile m policy h).2.runs =
        bif (i.observed? m policy h).isSome then
          i.argumentsIn m policy (h.scratch h.compiles) :: h.runs
        else h.runs := by
  have hcompiled := i.compiled m policy h
  generalize i.observed? m policy h = seen at hcompiled ⊢
  generalize i.compile m policy h = outcome at hcompiled ⊢
  cases hcompiled with
  | noFolder | unwritten => exact ⟨rfl, rfl, rfl⟩
  | @tried d d' run after hadd hbuild hlaunch =>
    have hspec := ({ h with disk := d', compiles := h.compiles + 1 } : Host).launch_spec
      i.compilerPath (i.argumentsIn m policy (h.scratch h.compiles))
      (Path.join (h.scratch h.compiles) logName)
    rw [hlaunch] at hspec
    rwa [Option.isSome_map]

/-- The compiler is called once in a compile if the machine provides for it, and else not at all. -/
theorem calls_compile (i : Invocation) (m : LoadedModule) (policy : Option Policy) (h : Host) :
    (i.compile m policy h).2.calls = h.calls ++
      if i.Launches m policy h then [i.argumentsIn m policy (h.scratch h.compiles)] else [] := by
  unfold Host.calls
  rw [(i.compile_host m policy h).2.2, if_congr launches_iff rfl rfl]
  cases (i.observed? m policy h).isSome with
  | false => rw [cond_false, if_neg Bool.false_ne_true, List.append_nil]
  | true => rw [cond_true, if_pos rfl, List.reverse_cons]

/-- A compile that succeeds has launched the compiler. -/
theorem launches_of_compile {log : KeyMap Measurement} (hok : (i.compile m policy h).1 = .ok log) :
    i.Launches m policy h := by
  obtain ⟨run, text, hrun, -⟩ := compile_eq_ok_iff.1 hok
  rw [launches_iff, hrun]
  rfl

/-! ## Compiles in turn -/

/-- A compile that was begun. -/
structure Attempt where
  /-- The policy that it was given. -/
  policy : Option Policy
  /-- The machine that it found. -/
  host : Host

namespace Attempt

/-- The scratch folder of the compile. -/
def folder (a : Attempt) : Path :=
  a.host.scratch a.host.compiles

/-- How the compile ends. -/
def result (i : Invocation) (m : LoadedModule) (a : Attempt) :
    Except CompilationError (KeyMap Measurement) :=
  (i.compile m a.policy a.host).1

/-- The arguments of the compile. -/
def args (i : Invocation) (m : LoadedModule) (a : Attempt) : List String :=
  i.argumentsIn m a.policy a.folder

end Attempt

/-- Compiles with several policies in turn, up to the first one that fails: which ones are begun,
and the machine that the last one leaves. -/
inductive InTurn (i : Invocation) (m : LoadedModule) :
    List (Option Policy) → Host → List Attempt → Host → Prop
  /-- There is nothing left to compile. -/
  | done (h : Host) : InTurn i m [] h [] h
  /-- A compile fails, and no other one is begun. -/
  | failed {policy policies h e} (herror : (i.compile m policy h).1 = .error e) :
    InTurn i m (policy :: policies) h [⟨policy, h⟩] (i.compile m policy h).2
  /-- A compile succeeds, and the next one finds the machine as it left it. -/
  | next {policy policies h log attempts last} (hok : (i.compile m policy h).1 = .ok log)
    (hrest : InTurn i m policies (i.compile m policy h).2 attempts last) :
    InTurn i m (policy :: policies) h (⟨policy, h⟩ :: attempts) last

namespace InTurn

variable {policies : List (Option Policy)} {attempts : List Attempt} {last : Host}

/-- The compiles that are begun are the first of those in turn. -/
theorem policies_prefix (hturn : InTurn i m policies h attempts last) :
    attempts.map (·.policy) <+: policies := by
  induction hturn with
  | done h => exact List.nil_prefix
  | failed herror => exact List.cons_prefix_cons.2 ⟨rfl, List.nil_prefix⟩
  | next hok hrest ih => exact List.cons_prefix_cons.2 ⟨rfl, ih⟩

/-- If none of them fails then all are begun. -/
theorem policies_eq (hturn : InTurn i m policies h attempts last)
    (hok : ∀ a ∈ attempts, ∃ log, a.result i m = .ok log) : attempts.map (·.policy) = policies := by
  induction hturn with
  | done h => rfl
  | @failed policy policies h e herror =>
    obtain ⟨log, hlog⟩ := hok ⟨policy, h⟩ List.mem_cons_self
    rw [Attempt.result, herror] at hlog
    cases hlog
  | @next policy policies h log attempts last hok' hrest ih =>
    rw [List.map_cons, ih fun a ha => hok a (List.mem_cons_of_mem _ ha)]

/-- Only the last compile may fail. -/
theorem last_of_error (hturn : InTurn i m policies h attempts last) {before later : List Attempt}
    {a : Attempt} (hsplit : attempts = before ++ a :: later) {e : CompilationError}
    (herror : a.result i m = .error e) : later = [] := by
  induction hturn generalizing before with
  | done h => exact absurd hsplit (by simp)
  | failed herror' =>
    rcases List.cons_eq_append_iff.1 hsplit with ⟨-, htail⟩ | ⟨before, -, htail⟩
    · exact (List.cons_eq_cons.1 htail).2
    · exact absurd htail (by simp)
  | next hok hrest ih =>
    rcases List.cons_eq_append_iff.1 hsplit with ⟨-, htail⟩ | ⟨before, -, htail⟩
    · obtain ⟨rfl, -⟩ := List.cons_eq_cons.1 htail
      rw [Attempt.result, hok] at herror
      cases herror
    · exact ih htail

/-- Each compile has the next scratch folder. -/
theorem folder_eq (hturn : InTurn i m policies h attempts last) (k : Nat) {a : Attempt}
    (ha : attempts[k]? = some a) : a.folder = h.scratch (h.compiles + k) := by
  induction hturn generalizing k with
  | done h => exact absurd ha (by simp)
  | failed herror =>
    obtain ⟨hk, rfl⟩ := List.getElem?_eq_some_iff.1 ha
    obtain rfl : k = 0 := by simpa using hk
    rfl
  | @next policy policies h log attempts last hok hrest ih =>
    cases k with
    | zero =>
      obtain rfl := Option.some.inj ha
      rfl
    | succ k =>
      obtain ⟨hcompiles, hscratch, -⟩ := i.compile_host m policy h
      have hrest := ih k ha
      rw [hcompiles, hscratch, Nat.add_right_comm] at hrest
      exact hrest

/-- As many scratch folders are taken as compiles are begun. -/
theorem compiles_eq (hturn : InTurn i m policies h attempts last) :
    last.compiles = h.compiles + attempts.length := by
  induction hturn with
  | done h => rfl
  | @failed policy policies h e herror => exact (i.compile_host m policy h).1
  | @next policy policies h log attempts last hok hrest ih =>
    rw [ih, (i.compile_host m policy h).1, List.length_cons, Nat.add_right_comm, Nat.add_assoc]

/-- The compiler is called with the arguments of the compiles for which the machine provides. -/
theorem calls_eq (hturn : InTurn i m policies h attempts last) :
    last.calls = h.calls ++
      (attempts.filter fun a => i.Launches m a.policy a.host).map (·.args i m) := by
  induction hturn with
  | done h => rw [List.filter_nil, List.map_nil, List.append_nil]
  | @failed policy policies h e herror =>
    rw [calls_compile]
    by_cases hlaunch : i.Launches m policy h
    · rw [if_pos hlaunch, List.filter_cons, if_pos (decide_eq_true hlaunch)]
      rfl
    · rw [if_neg hlaunch, List.filter_cons, if_neg (mt of_decide_eq_true hlaunch)]
      rfl
  | @next policy policies h log attempts last hok hrest ih =>
    have hlaunch : i.Launches m policy h := launches_of_compile hok
    rw [ih, calls_compile, if_pos hlaunch, List.filter_cons, if_pos (decide_eq_true hlaunch),
      List.append_assoc]
    rfl

end InTurn

end Invocation

namespace CompileRunner

variable {r : CompileRunner} {m : LoadedModule} {h : Host} {modelId : Nat}

/-- The compiles that a module needs: one without a policy unless baselines are given, and one with
the policy, if there is one or no other compile. -/
def plan (policy : Option Policy) : Option RewardStats → List (Option Policy)
  | some _ => [policy]
  | none => none :: policy.toList.map some

/-- A first compile that fails is all there is. -/
theorem collect_of_error {policy : Option Policy} {e : CompilationError}
    (herror : (r.invocation.compile m none h).1 = .error e) :
    r.collect m policy none modelId h = (.error e, (r.invocation.compile m none h).2) := by
  unfold collect
  rcases hcompile : r.invocation.compile m none h with ⟨result, after⟩
  rw [hcompile] at herror
  obtain rfl : result = .error e := herror
  rfl

/-- Without a policy a first compile that succeeds is all there is. -/
theorem collect_none_of_ok {log : KeyMap Measurement}
    (hok : (r.invocation.compile m none h).1 = .ok log) :
    r.collect m none none modelId h =
      (r.assemble m.name (baselines log) log modelId, (r.invocation.compile m none h).2) := by
  unfold collect
  rcases hcompile : r.invocation.compile m none h with ⟨result, after⟩
  rw [hcompile] at hok
  obtain rfl : result = .ok log := hok
  rfl

/-- With a policy a first compile that succeeds is followed by another one. -/
theorem collect_some_of_ok {p : Policy} {log : KeyMap Measurement}
    (hok : (r.invocation.compile m none h).1 = .ok log) :
    r.collect m (some p) none modelId h =
      r.collectWith m (some p) (baselines log) modelId (r.invocation.compile m none h).2 := by
  unfold collect
  rcases hcompile : r.invocation.compile m none h with ⟨result, after⟩
  rw [hcompile] at hok
  obtain rfl : result = .ok log := hok
  rfl

/-- With baselines there is no first compile. -/
theorem collect_given (r : CompileRunner) (m : LoadedModule) (policy : Option Policy)
    (stats : RewardStats) (modelId : Nat) (h : Host) :
    r.collect m policy (some stats) modelId h = r.collectWith m policy stats modelId h :=
  rfl

/-- With baselines there is one compile, and its error is the result. -/
theorem collectWith_spec (r : CompileRunner) (m : LoadedModule) (policy : Option Policy)
    (stats : RewardStats) (modelId : Nat) (h : Host) :
    (r.collectWith m policy stats modelId h).2 = (r.invocation.compile m policy h).2 ∧
      ∀ e, (r.invocation.compile m policy h).1 = .error e →
        (r.collectWith m policy stats modelId h).1 = .error e := by
  unfold collectWith
  rcases r.invocation.compile m policy h with ⟨result, after⟩
  cases result with
  | error e => exact ⟨rfl, fun _ herror => by rw [Except.error.inj herror]⟩
  | ok log => exact ⟨rfl, nofun⟩

/-- One compile in turn. -/
theorem inTurn_single (i : Invocation) (m : LoadedModule) (policy : Option Policy) (h : Host) :
    i.InTurn m [policy] h [⟨policy, h⟩] (i.compile m policy h).2 := by
  cases hresult : (i.compile m policy h).1 with
  | error e => exact .failed hresult
  | ok log => exact .next hresult (.done _)

/-- Collecting data compiles as planned, and gives the error of a compile that fails. -/
theorem exists_inTurn (r : CompileRunner) (m : LoadedModule) (policy : Option Policy)
    (stats : Option RewardStats) (modelId : Nat) (h : Host) :
    ∃ attempts, r.invocation.InTurn m (plan policy stats) h attempts
        (r.collect m policy stats modelId h).2 ∧
      attempts ≠ [] ∧
      ∀ a ∈ attempts, ∀ e, a.result r.invocation m = .error e →
        (r.collect m policy stats modelId h).1 = .error e := by
  cases stats with
  | some stats =>
    obtain ⟨hlast, herror⟩ := r.collectWith_spec m policy stats modelId h
    have hturn := inTurn_single r.invocation m policy h
    rw [← hlast] at hturn
    rw [← collect_given] at hturn
    refine ⟨[⟨policy, h⟩], hturn, List.cons_ne_nil _ _, fun a ha => ?_⟩
    obtain rfl := List.mem_singleton.1 ha
    rw [Invocation.Attempt.result, collect_given]
    exact herror
  | none =>
    cases hfirst : (r.invocation.compile m none h).1 with
    | error e =>
      rw [collect_of_error hfirst]
      dsimp only
      refine ⟨[⟨none, h⟩], .failed hfirst, List.cons_ne_nil _ _, fun a ha e' he' => ?_⟩
      obtain rfl := List.mem_singleton.1 ha
      rw [Invocation.Attempt.result, hfirst] at he'
      rw [Except.error.inj he']
    | ok log =>
      have hok (e : CompilationError) :
          (⟨none, h⟩ : Invocation.Attempt).result r.invocation m ≠ .error e := by
        rw [Invocation.Attempt.result, hfirst]
        nofun
      cases policy with
      | none =>
        have hturn : r.invocation.InTurn m [none] h [⟨none, h⟩] (r.invocation.compile m none h).2 :=
          .next hfirst (.done _)
        rw [collect_none_of_ok hfirst]
        dsimp only
        refine ⟨[⟨none, h⟩], hturn, List.cons_ne_nil _ _, fun a ha e he => ?_⟩
        obtain rfl := List.mem_singleton.1 ha
        exact absurd he (hok e)
      | some p =>
        obtain ⟨hlast, herror⟩ := r.collectWith_spec m (some p) (baselines log) modelId
          (r.invocation.compile m none h).2
        have hturn := inTurn_single r.invocation m (some p) (r.invocation.compile m none h).2
        rw [← hlast] at hturn
        rw [collect_some_of_ok hfirst]
        refine ⟨_, .next hfirst hturn, List.cons_ne_nil _ _, fun a ha e he => ?_⟩
        rcases List.mem_cons.1 ha with rfl | ha
        · exact absurd he (hok e)
        · obtain rfl := List.mem_singleton.1 ha
          exact herror e (by simpa only [Invocation.Attempt.result] using he)

/-- How collecting data calls the compiler. It begins compiles in turn, first one without a policy
exactly if no baselines are given, and then one with the policy unless there is none and the first
one serves: once or twice, each in a scratch folder of its own. The error of the first compile that
fails is the result, and no other one is begun; if none fails then all that were planned are begun.
A compile succeeds exactly if the compiler is launched, ends with success in time and leaves a log
that can be read. The compiler is called once in each compile for which the machine provides up to
the launch, and not in the others. In the arguments the options of the module are followed by the
output, by the flags for the training log and, if the compile has a policy, by those for the policy,
with every placeholder filled; so a policy adds arguments at the end and changes none of the
others. -/
theorem compiler_called_as_planned (r : CompileRunner) (m : LoadedModule)
    (policy : Option Policy) (stats : Option RewardStats) (modelId : Nat) (h : Host) :
    ∃ attempts, r.invocation.InTurn m (plan policy stats) h attempts
        (r.collect m policy stats modelId h).2 ∧
      attempts.map (·.policy) <+: plan policy stats ∧
      1 ≤ attempts.length ∧ attempts.length ≤ 2 ∧
      (r.collect m policy stats modelId h).2.compiles = h.compiles + attempts.length ∧
      (r.collect m policy stats modelId h).2.calls = h.calls ++
        (attempts.filter fun a => r.invocation.Launches m a.policy a.host).map
          (·.args r.invocation m) ∧
      (∀ k a, attempts[k]? = some a → a.folder = h.scratch (h.compiles + k)) ∧
      (∀ before a later, attempts = before ++ a :: later →
        (∀ e, a.result r.invocation m = .error e →
          later = [] ∧ (r.collect m policy stats modelId h).1 = .error e) ∧
        ∀ log, a.result r.invocation m = .ok log ↔ r.invocation.Yields m a.policy a.host log) ∧
      ((∀ a ∈ attempts, ∃ log, a.result r.invocation m = .ok log) →
        attempts.map (·.policy) = plan policy stats) ∧
      (∀ a ∈ attempts, ∃ logArgs policyArgs, a.args r.invocation m =
          m.resolved a.folder ++ ["-o", Path.join a.folder Invocation.outputName] ++ logArgs ++
            policyArgs ∧
        Invocation.Filled logPlaceholder (Path.join a.folder Invocation.logName)
          r.invocation.logFlags logArgs ∧
        (a.policy = none → policyArgs = []) ∧
        ∀ p, a.policy = some p →
          Invocation.Filled policyPlaceholder p.path r.invocation.policyFlags policyArgs ∧
          a.args r.invocation m = r.invocation.argumentsIn m none a.folder ++ policyArgs) := by
  obtain ⟨attempts, hturn, hsome, herror⟩ := r.exists_inTurn m policy stats modelId h
  have hprefix := hturn.policies_prefix
  have hplanned : (plan policy stats).length ≤ 2 := by
    cases stats with
    | some stats => exact Nat.le_succ 1
    | none => cases policy <;> simp [plan]
  have hlength : attempts.length ≤ (plan policy stats).length := by
    rw [← List.length_map (f := (·.policy))]
    exact hprefix.length_le
  refine ⟨attempts, hturn, hprefix, List.length_pos_iff.2 hsome, hlength.trans hplanned,
    hturn.compiles_eq, hturn.calls_eq, fun k a => hturn.folder_eq k, ?_, hturn.policies_eq, ?_⟩
  · intro before a later hsplit
    have ha : a ∈ attempts := by
      rw [hsplit]
      exact List.mem_append_right _ List.mem_cons_self
    exact ⟨fun e he => ⟨hturn.last_of_error hsplit he, herror a ha e he⟩,
      fun log => Invocation.compile_eq_ok_iff⟩
  · exact fun a _ => r.invocation.argumentsIn_spec m a.policy a.folder

/-- A module is compiled without a policy and then with one, and the compiler is called both times.
Where there is no compiler one compile is begun, and nothing is called. -/
theorem compiler_called_as_planned_of_two_compiles :
    (∃ attempts, Sample.measurer.invocation.InTurn Sample.measured
        [none, some ⟨"/policy", ""⟩] Sample.machine attempts
        (Sample.measurer.collect Sample.measured (some ⟨"/policy", ""⟩) none 7 Sample.machine).2 ∧
      attempts.map (·.policy) = [none, some ⟨"/policy", ""⟩] ∧
      (∀ a ∈ attempts, Sample.measurer.invocation.Launches Sample.measured a.policy a.host) ∧
      attempts.map (·.args Sample.measurer.invocation Sample.measured) =
        [["-c", "/first/m.bc", "-o", "/first/output.o", "-log=/first/training_log.jsonl"],
          ["-c", "/second/m.bc", "-o", "/second/output.o", "-log=/second/training_log.jsonl",
            "-policy=/policy"]] ∧
      (Sample.measurer.collect Sample.measured (some ⟨"/policy", ""⟩) none 7
          Sample.machine).2.calls =
        attempts.map (·.args Sample.measurer.invocation Sample.measured)) ∧
    ∃ h, ¬ Sample.measurer.invocation.Launches Sample.measured none h ∧
      (Sample.measurer.collect Sample.measured (some ⟨"/policy", ""⟩) none 7 h).2.calls = [] ∧
      (Sample.measurer.collect Sample.measured (some ⟨"/policy", ""⟩) none 7 h).2.compiles = 1 := by
  constructor
  · obtain ⟨attempts, hturn, hprefix, -, -, hcompiles, hcalls, -⟩ :=
      compiler_called_as_planned Sample.measurer Sample.measured (some ⟨"/policy", ""⟩) none 7
        Sample.machine
    obtain ⟨hfolders, hcalled⟩ : (Sample.measurer.collect Sample.measured (some ⟨"/policy", ""⟩)
          none 7 Sample.machine).2.compiles = 2 ∧
        (Sample.measurer.collect Sample.measured (some ⟨"/policy", ""⟩) none 7
          Sample.machine).2.calls =
          [["-c", "/first/m.bc", "-o", "/first/output.o", "-log=/first/training_log.jsonl"],
            ["-c", "/second/m.bc", "-o", "/second/output.o", "-log=/second/training_log.jsonl",
              "-policy=/policy"]] := by
      decide +kernel
    have htwo : attempts.length = 2 := by
      rw [hfolders] at hcompiles
      exact (hcompiles.trans (Nat.zero_add _)).symm
    -- There are as many calls as compiles, so none of the compiles goes without one.
    have hall : (attempts.filter fun a => Sample.measurer.invocation.Launches Sample.measured
        a.policy a.host) = attempts := by
      refine List.filter_eq_self.2 (List.length_filter_eq_length_iff.1 ?_)
      rw [htwo]
      have hlength := congrArg List.length hcalls
      rw [hcalled, List.length_append, List.length_map] at hlength
      exact (hlength.trans (Nat.zero_add _)).symm
    rw [hall] at hcalls
    refine ⟨attempts, hturn, hprefix.eq_of_length (by rw [List.length_map, htwo]; rfl),
      fun a ha => of_decide_eq_true (List.filter_eq_self.1 hall a ha), ?_, hcalls⟩
    rw [← hcalled, hcalls]
    rfl
  · refine ⟨{ Sample.machine with compiler? := fun _ => none }, ?_, ?_, ?_⟩
    · rintro ⟨-, ⟨_, ⟨⟩⟩, -⟩
    · decide +kernel
    · decide +kernel

end CompileRunner

end TraceGen
