import Mathlib.Tactic.Common

/-!
Runs of a deterministic input-driven system. A run is a fold of the step
function over the inputs. A safety property of all runs follows from what one
step preserves. A property that holds only while the steps keep a side
condition follows from the same step lemma along the run. The trace of a run
collects what its steps put out. A system may also stop for good at a step that
is not allowed.
-/
namespace Runs
variable {σ ι : Type}

def run (step : σ → ι → σ) (s : σ) (inputs : List ι) : σ := inputs.foldl step s

@[simp] theorem run_nil (step : σ → ι → σ) (s : σ) : run step s [] = s := rfl

@[simp] theorem run_cons (step : σ → ι → σ) (s : σ) (i : ι) (inputs : List ι) :
    run step s (i :: inputs) = run step (step s i) inputs := rfl

theorem run_append (step : σ → ι → σ) (s : σ) (a b : List ι) :
    run step s (a ++ b) = run step (run step s a) b := by
  simp [run]

/-- Every step of the run from `s` keeps the side condition `ok`. -/
def Along (step : σ → ι → σ) (ok : σ → ι → Prop) : σ → List ι → Prop
  | _, [] => True
  | s, i :: inputs => ok s i ∧ Along step ok (step s i) inputs

instance Along.decidable (step : σ → ι → σ) (ok : σ → ι → Prop) [∀ s i, Decidable (ok s i)] :
    (s : σ) → (inputs : List ι) → Decidable (Along step ok s inputs)
  | _, [] => .isTrue trivial
  | s, i :: inputs => @instDecidableAnd _ _ _ (Along.decidable step ok (step s i) inputs)

theorem along_append {step : σ → ι → σ} {ok : σ → ι → Prop} (s : σ) (a b : List ι) :
    Along step ok s (a ++ b) ↔ Along step ok s a ∧ Along step ok (run step s a) b := by
  induction a generalizing s with
  | nil => simp [Along]
  | cons i a ih => simp [Along, ih, and_assoc]

theorem Along.imp {step : σ → ι → σ} {ok ok' : σ → ι → Prop} (weaker : ∀ s i, ok s i → ok' s i)
    {s : σ} {inputs : List ι} (h : Along step ok s inputs) : Along step ok' s inputs := by
  induction inputs generalizing s with
  | nil => trivial
  | cons i inputs ih => exact ⟨weaker s i h.1, ih h.2⟩

theorem Along.and {step : σ → ι → σ} {ok ok' : σ → ι → Prop} {s : σ} {inputs : List ι}
    (h : Along step ok s inputs) (h' : Along step ok' s inputs) :
    Along step (fun s i => ok s i ∧ ok' s i) s inputs := by
  induction inputs generalizing s with
  | nil => trivial
  | cons i inputs ih => exact ⟨⟨h.1, h'.1⟩, ih h.2 h'.2⟩

theorem along_of_forall {step : σ → ι → σ} {ok : σ → ι → Prop} {s : σ} {inputs : List ι}
    (h : ∀ s i, i ∈ inputs → ok s i) : Along step ok s inputs := by
  induction inputs generalizing s with
  | nil => trivial
  | cons i inputs ih =>
      exact ⟨h s i (.head inputs), ih fun s j hj => h s j (.tail i hj)⟩

/-- What the steps of a run put out, in order. -/
def trace {ω : Type} (step : σ → ι → σ) (out : σ → ι → Option ω) : σ → List ι → List ω
  | _, [] => []
  | s, i :: inputs => (out s i).toList ++ trace step out (step s i) inputs

/-- Whatever is in the trace was put out by some step of the run. -/
theorem mem_trace {ω : Type} {step : σ → ι → σ} {out : σ → ι → Option ω} {s : σ}
    {inputs : List ι} {o : ω} (h : o ∈ trace step out s inputs) :
    ∃ before i after, inputs = before ++ i :: after ∧ out (run step s before) i = some o := by
  induction inputs generalizing s with
  | nil => cases h
  | cons i inputs ih =>
      rcases List.mem_append.mp h with hhead | htail
      · exact ⟨[], i, inputs, rfl, Option.mem_toList.mp hhead⟩
      · obtain ⟨before, j, after, rfl, hout⟩ := ih htail
        exact ⟨i :: before, j, after, rfl, hout⟩

theorem mem_trace_of {ω : Type} {step : σ → ι → σ} {out : σ → ι → Option ω} {s : σ}
    {before after : List ι} {i : ι} {o : ω} (h : out (run step s before) i = some o) :
    o ∈ trace step out s (before ++ i :: after) := by
  induction before generalizing s with
  | nil => exact List.mem_append_left _ (Option.mem_toList.mpr h)
  | cons j before ih => exact List.mem_append_right _ (ih h)

/-- A relation holds between any two outputs of a run exactly when it holds between the
outputs of any two of its steps. -/
theorem pairwise_trace_iff {ω : Type} {step : σ → ι → σ} {out : σ → ι → Option ω}
    {R : ω → ω → Prop} (s : σ) (inputs : List ι) :
    (trace step out s inputs).Pairwise R ↔
      ∀ before i between j after, inputs = before ++ i :: (between ++ j :: after) →
        ∀ o o', out (run step s before) i = some o →
          out (run step s (before ++ i :: between)) j = some o' → R o o' := by
  induction inputs generalizing s with
  | nil =>
      refine ⟨fun _ before i between j after h => ?_, fun _ => List.Pairwise.nil⟩
      cases before <;> cases h
  | cons k inputs ih =>
      have hfirst : (out s k).toList.Pairwise R := by
        cases out s k
        · exact List.Pairwise.nil
        · exact List.pairwise_singleton R _
      rw [trace, List.pairwise_append, ih]
      constructor
      · rintro ⟨-, htail, hcross⟩ before i between j after heq o o' ho ho'
        cases before with
        | nil =>
            obtain ⟨rfl, rfl⟩ := List.cons.inj heq
            exact hcross o (Option.mem_toList.mpr ho) o' (mem_trace_of ho')
        | cons _ before =>
            obtain ⟨rfl, hrest⟩ := List.cons.inj heq
            exact htail before i between j after hrest o o' ho ho'
      · intro hall
        refine ⟨hfirst, fun before i between j after heq => ?_, fun o ho o' ho' => ?_⟩
        · exact hall (k :: before) i between j after (by rw [heq, List.cons_append])
        · obtain ⟨between, j, after, rfl, hout⟩ := mem_trace ho'
          exact hall [] k between j after rfl o o' (Option.mem_toList.mp ho) hout

/-- A simulation that relates outputs step by step relates the traces. -/
theorem trace_map {τ ω ω' : Type} {step : σ → ι → σ} {step' : τ → ι → τ}
    {out : σ → ι → Option ω} {out' : τ → ι → Option ω'} {R : σ → τ → Prop} {f : ω' → ω}
    (stepped : ∀ s t i, R s t → R (step s i) (step' t i))
    (outputs : ∀ s t i, R s t → out s i = (out' t i).map f) {s : σ} {t : τ} (start : R s t)
    (inputs : List ι) : trace step out s inputs = (trace step' out' t inputs).map f := by
  induction inputs generalizing s t with
  | nil => rfl
  | cons i inputs ih =>
      simp only [trace, outputs s t i start, ih (stepped s t i start), List.map_append]
      cases out' t i <;> rfl

theorem run_invariant {step : σ → ι → σ} {P : σ → Prop}
    (preserved : ∀ s i, P s → P (step s i)) (s : σ) (inputs : List ι) (start : P s) :
    P (run step s inputs) := by
  induction inputs generalizing s with
  | nil => exact start
  | cons i inputs ih => exact ih (step s i) (preserved s i start)

theorem run_along {step : σ → ι → σ} {ok : σ → ι → Prop} {P : σ → Prop}
    (preserved : ∀ s i, P s → ok s i → P (step s i)) (s : σ) (inputs : List ι)
    (start : P s) (kept : Along step ok s inputs) : P (run step s inputs) := by
  induction inputs generalizing s with
  | nil => exact start
  | cons i inputs ih => exact ih (step s i) (preserved s i start kept.1) kept.2

/-- Where each allowed step keeps `P` exactly when `good` holds of it, `P` holds
throughout the run exactly when `good` holds along it. -/
theorem forall_run_iff_along {step : σ → ι → σ} {ok good : σ → ι → Prop} {P : σ → Prop}
    (preserved : ∀ s i, P s → ok s i → (P (step s i) ↔ good s i)) (s : σ) (inputs : List ι)
    (start : P s) (kept : Along step ok s inputs) :
    (∀ before after, inputs = before ++ after → P (run step s before)) ↔
      Along step good s inputs := by
  induction inputs generalizing s with
  | nil =>
      refine ⟨fun _ => trivial, fun _ before after heq => ?_⟩
      obtain ⟨rfl, -⟩ := List.append_eq_nil_iff.mp heq.symm
      exact start
  | cons i inputs ih =>
      constructor
      · intro hrun
        have hstep : P (step s i) := hrun [i] inputs rfl
        refine ⟨(preserved s i start kept.1).mp hstep, (ih _ hstep kept.2).mp ?_⟩
        intro before after heq
        exact hrun (i :: before) after (by rw [heq, List.cons_append])
      · intro hgood before after heq
        have hstep : P (step s i) := (preserved s i start kept.1).mpr hgood.1
        cases before with
        | nil => exact start
        | cons j before =>
            obtain ⟨rfl, hrest⟩ := List.cons.inj heq
            exact (ih _ hstep kept.2).mpr hgood.2 before after hrest

theorem forall_run_iff {step : σ → ι → σ} {good : σ → ι → Prop} {P : σ → Prop}
    (preserved : ∀ s i, P s → (P (step s i) ↔ good s i)) (s : σ) (inputs : List ι)
    (start : P s) :
    (∀ before after, inputs = before ++ after → P (run step s before)) ↔
      Along step good s inputs := by
  have kept : Along step (fun _ _ => True) s inputs := along_of_forall fun _ _ _ => trivial
  exact forall_run_iff_along (fun s i h _ => preserved s i h) s inputs start kept

/-- Where each step puts out and keeps holding what it held and was given, so
does the run. -/
theorem trace_conserves {ω : Type} {step : σ → ι → σ} {out : σ → ι → Option ω}
    {ok : σ → ι → Prop} {P : σ → Prop} (held : σ → List ω) (given : ι → List ω)
    (preserved : ∀ s i, P s → ok s i → P (step s i))
    (conserved : ∀ s i, P s → ok s i → (out s i).toList ++ held (step s i) = held s ++ given i)
    (s : σ) (inputs : List ι) (start : P s) (kept : Along step ok s inputs) :
    trace step out s inputs ++ held (run step s inputs) = held s ++ inputs.flatMap given := by
  induction inputs generalizing s with
  | nil => simp [trace]
  | cons i inputs ih =>
      have htail := ih (step s i) (preserved s i start kept.1) kept.2
      rw [trace, run_cons, List.append_assoc, htail, ← List.append_assoc,
        conserved s i start kept.1, List.append_assoc, List.flatMap_cons]

/-- A property of the state and of what has been put out so far. -/
theorem trace_along {ω : Type} {step : σ → ι → σ} {out : σ → ι → Option ω}
    {ok : σ → ι → Prop} {P : σ → List ω → Prop}
    (preserved : ∀ s i os, P s os → ok s i → P (step s i) (os ++ (out s i).toList)) (s : σ)
    (inputs : List ι) (before : List ω) (start : P s before) (kept : Along step ok s inputs) :
    P (run step s inputs) (before ++ trace step out s inputs) := by
  induction inputs generalizing s before with
  | nil =>
      rw [trace, List.append_nil]
      exact start
  | cons i inputs ih =>
      rw [trace, ← List.append_assoc]
      exact ih (step s i) _ (preserved s i before start kept.1) kept.2

/-- A system that stops for good at the first step that is not allowed. -/
def stopping (allowed : σ → ι → Bool) (step : σ → ι → σ) (s : Option σ) (i : ι) : Option σ :=
  s.bind fun s => if allowed s i then some (step s i) else none

theorem run_stopped (allowed : σ → ι → Bool) (step : σ → ι → σ) (inputs : List ι) :
    run (stopping allowed step) none inputs = none := by
  induction inputs with
  | nil => rfl
  | cons i inputs ih => exact ih

/-- It goes on as long as every step is allowed, and then runs as the system does. -/
theorem run_stopping_iff {allowed : σ → ι → Bool} {step : σ → ι → σ} {s t : σ}
    {inputs : List ι} :
    run (stopping allowed step) (some s) inputs = some t ↔
      Along step (fun s i => allowed s i = true) s inputs ∧ run step s inputs = t := by
  induction inputs generalizing s with
  | nil => simp [Along]
  | cons i inputs ih =>
      rw [run_cons, run_cons, Along]
      by_cases hi : allowed s i = true
      · rw [stopping, Option.bind_some, if_pos hi, ih, and_assoc]
        exact (and_iff_right hi).symm
      · rw [stopping, Option.bind_some, if_neg hi, run_stopped]
        exact iff_of_false (fun h => Option.some_ne_none _ h.symm) fun h => hi h.1.1

/-- What the steps of a run account for, each in the state it is taken in. -/
def gather {ω : Type} (step : σ → ι → σ) (f : σ → ι → List ω) : σ → List ι → List ω
  | _, [] => []
  | s, i :: inputs => f s i ++ gather step f (step s i) inputs

theorem mem_gather {ω : Type} {step : σ → ι → σ} {f : σ → ι → List ω} {s : σ}
    {inputs : List ι} {o : ω} (h : o ∈ gather step f s inputs) :
    ∃ t, ∃ i ∈ inputs, o ∈ f t i := by
  induction inputs generalizing s with
  | nil => cases h
  | cons i inputs ih =>
      rcases List.mem_append.mp h with hhead | htail
      · exact ⟨s, i, List.mem_cons_self, hhead⟩
      · obtain ⟨t, j, hj, ho⟩ := ih htail
        exact ⟨t, j, List.mem_cons_of_mem i hj, ho⟩

/-- Where each step gives up and keeps what it held and took in, so does the run. -/
theorem gather_conserves {ω : Type} {step : σ → ι → σ} {up down : σ → ι → List ω}
    {ok : σ → ι → Prop} {P : σ → Prop} (held : σ → List ω)
    (preserved : ∀ s i, P s → ok s i → P (step s i))
    (conserved : ∀ s i, P s → ok s i → down s i ++ held (step s i) = held s ++ up s i)
    (s : σ) (inputs : List ι) (start : P s) (kept : Along step ok s inputs) :
    gather step down s inputs ++ held (run step s inputs) =
      held s ++ gather step up s inputs := by
  induction inputs generalizing s with
  | nil => simp [gather]
  | cons i inputs ih =>
      have htail := ih (step s i) (preserved s i start kept.1) kept.2
      rw [gather, run_cons, List.append_assoc, htail, ← List.append_assoc,
        conserved s i start kept.1, List.append_assoc, gather]

/-- A property of everything a run accounts for is a property of every step. -/
theorem forall_mem_gather_iff {ω : Type} {step : σ → ι → σ} {f : σ → ι → List ω}
    {Q : ω → Prop} {good : ι → Prop} {P : σ → Prop} (preserved : ∀ s i, P s → P (step s i))
    (each : ∀ s i, P s → ((∀ o ∈ f s i, Q o) ↔ good i)) (s : σ) (inputs : List ι)
    (start : P s) : (∀ o ∈ gather step f s inputs, Q o) ↔ ∀ i ∈ inputs, good i := by
  induction inputs generalizing s with
  | nil => simp [gather]
  | cons i inputs ih =>
      rw [gather, List.forall_mem_append, each s i start,
        ih (step s i) (preserved s i start), List.forall_mem_cons]

/-- The runs of a transition relation whose steps give a value. -/
inductive Traces {ω : Type} (Step : σ → ι → ω → σ → Prop) : σ → List (ι × ω) → σ → Prop
  | nil (s : σ) : Traces Step s [] s
  | cons {s t u : σ} {i : ι} {o : ω} {observed : List (ι × ω)} (first : Step s i o t)
      (rest : Traces Step t observed u) : Traces Step s ((i, o) :: observed) u

/-- The inputs of a run, each with the value it gives. -/
def observed {ω : Type} (step : σ → ι → σ) (out : σ → ι → ω) : σ → List ι → List (ι × ω)
  | _, [] => []
  | s, i :: inputs => (i, out s i) :: observed step out (step s i) inputs

/-- Related states give the same values throughout if each step keeps the relation. -/
theorem observed_eq {ω : Type} {step : σ → ι → σ} {out : σ → ι → ω} {R : σ → σ → Prop}
    (preserved : ∀ s t i, R s t → R (step s i) (step t i))
    (same : ∀ s t i, R s t → out t i = out s i) {s t : σ} (start : R s t) (inputs : List ι) :
    observed step out t inputs = observed step out s inputs := by
  induction inputs generalizing s t with
  | nil => rfl
  | cons i inputs ih => rw [observed, observed, same s t i start, ih (preserved s t i start)]

/-- Where each step is one of the relation between the abstract states, so is the run. -/
theorem traces_of_steps {ω α : Type} {step : σ → ι → σ} {out : σ → ι → ω}
    {Step : α → ι → ω → α → Prop} {P : σ → Prop} (abstract : σ → α)
    (preserved : ∀ s i, P s → P (step s i))
    (steps : ∀ s i, P s → Step (abstract s) i (out s i) (abstract (step s i))) (s : σ)
    (inputs : List ι) (start : P s) :
    Traces Step (abstract s) (observed step out s inputs) (abstract (run step s inputs)) := by
  induction inputs generalizing s with
  | nil => exact .nil _
  | cons i inputs ih => exact .cons (steps s i start) (ih (step s i) (preserved s i start))

/-- The states some run reaches from an initial state. -/
inductive Reachable (step : σ → ι → σ) (init : σ → Prop) : σ → Prop
  | start {s : σ} : init s → Reachable step init s
  | next {s : σ} (i : ι) : Reachable step init s → Reachable step init (step s i)

theorem Reachable.run {step : σ → ι → σ} {init : σ → Prop} {s : σ}
    (h : Reachable step init s) (inputs : List ι) :
    Reachable step init (Runs.run step s inputs) :=
  run_invariant (P := Reachable step init) (fun _ i hs => hs.next i) s inputs h

theorem Reachable.invariant {step : σ → ι → σ} {init P : σ → Prop}
    (initial : ∀ s, init s → P s) (preserved : ∀ s i, P s → P (step s i)) {s : σ}
    (h : Reachable step init s) : P s := by
  induction h with
  | start hs => exact initial _ hs
  | next i _ ih => exact preserved _ i ih

end Runs
