import LineCalc.Expr.Error

set_option autoImplicit false

/- A tally counts each call of a function once, as a success or as a failure, and always as timed.
What is counted of one function leaves the counts of every other one alone, and only functions that
were used are known. -/
namespace LineCalc

/-! The order of functions -/

namespace Labels

theorem before_iff {x y : Labels} :
    x.before y = true ↔ x.layer < y.layer ∨ x.layer = y.layer ∧ x.function < y.function := by
  simp [before]

theorem before_irrefl (x : Labels) : x.before x = false := by
  rw [← Bool.not_eq_true, before_iff]
  rintro (lower | ⟨_, lower⟩)
  · exact String.lt_irrefl _ lower
  · exact String.lt_irrefl _ lower

theorem before_trans {x y z : Labels} (first : x.before y = true) (second : y.before z = true) :
    x.before z = true := by
  rw [before_iff] at first second ⊢
  rcases first with first | ⟨same, first⟩
  · rcases second with second | ⟨same, second⟩
    · exact .inl (String.lt_trans first second)
    · exact .inl (same ▸ first)
  · rw [same]
    rcases second with second | ⟨other, second⟩
    · exact .inl second
    · exact .inr ⟨other, String.lt_trans first second⟩

/-- Of two functions one comes first. -/
theorem before_of_not_before {x y : Labels} (other : y ≠ x) (late : ¬x.before y = true) :
    y.before x = true := by
  rw [before_iff, not_or, not_and] at late
  rw [before_iff]
  have layers : y.layer ≤ x.layer := String.not_lt.mp late.1
  by_cases same : x.layer = y.layer
  · have functions : y.function ≤ x.function := String.not_lt.mp (late.2 same)
    refine .inr ⟨same.symm, String.not_le.mp fun above => other ?_⟩
    have function := String.le_antisymm functions above
    obtain ⟨_, _⟩ := x
    obtain ⟨_, _⟩ := y
    cases same
    cases function
    rfl
  · exact .inl (String.not_le.mp fun above => same (String.le_antisymm above layers))

end Labels

namespace Tally

/-- The entries ascend, so that a function has no more than one. -/
def Ordered (tally : Tally) : Prop :=
  tally.Pairwise fun entry later => entry.1.before later.1 = true

theorem ordered_empty : Ordered empty := List.Pairwise.nil

/-! What a change does to the counts -/

theorem counts_cons (key : Labels) (counts : Counts) (rest : Tally) (labels : Labels) :
    Tally.counts ((key, counts) :: rest) labels =
      if labels = key then counts else Tally.counts rest labels := by
  rw [Tally.counts, List.lookup_cons]
  by_cases same : labels = key
  · simp [same]
  · rw [beq_false_of_ne same, if_neg same]
    rfl

/-- A function that comes before every entry has not been counted. -/
theorem counts_of_before {tally : Tally} {labels : Labels}
    (first : ∀ entry ∈ tally, labels.before entry.1 = true) : tally.counts labels = {} := by
  induction tally with
  | nil => rfl
  | cons entry rest ih =>
    have absent : labels ≠ entry.1 := by
      intro same
      have lower := first entry List.mem_cons_self
      rw [same, Labels.before_irrefl] at lower
      cases lower
    rw [counts_cons, if_neg absent]
    exact ih fun later member => first later (List.mem_cons_of_mem _ member)

/-- An entry is either changed or kept, and only a new one is added. -/
theorem mem_update {tally : Tally} {labels : Labels} {change : Counts → Counts}
    {entry : Labels × Counts} (member : entry ∈ tally.update labels change) :
    entry.1 = labels ∨ entry ∈ tally := by
  induction tally with
  | nil =>
    rw [update, List.mem_singleton] at member
    exact .inl (congrArg Prod.fst member)
  | cons head rest ih =>
    obtain ⟨key, counts⟩ := head
    rw [update] at member
    split at member
    · rename_i same
      rcases List.mem_cons.mp member with rfl | later
      · exact .inl same
      · exact .inr (List.mem_cons_of_mem _ later)
    · split at member
      · rcases List.mem_cons.mp member with rfl | later
        · exact .inl rfl
        · exact .inr later
      · rcases List.mem_cons.mp member with rfl | later
        · exact .inr List.mem_cons_self
        · exact (ih later).imp_right (List.mem_cons_of_mem _)

theorem Ordered.update {tally : Tally} (ordered : tally.Ordered) (labels : Labels)
    (change : Counts → Counts) : (tally.update labels change).Ordered := by
  induction tally with
  | nil => exact List.pairwise_singleton _ _
  | cons head rest ih =>
    obtain ⟨key, counts⟩ := head
    have later := (List.pairwise_cons.mp ordered).1
    have inner := (List.pairwise_cons.mp ordered).2
    rw [Tally.update]
    split
    · exact List.pairwise_cons.mpr ⟨later, inner⟩
    · rename_i other
      split
      · rename_i lower
        refine List.pairwise_cons.mpr ⟨fun entry member => ?_, ordered⟩
        rcases List.mem_cons.mp member with rfl | member
        · exact lower
        · exact Labels.before_trans lower (later entry member)
      · rename_i late
        refine List.pairwise_cons.mpr ⟨fun entry member => ?_, ih inner⟩
        rcases mem_update member with same | member
        · rw [same]
          exact Labels.before_of_not_before other late
        · exact later entry member

/-- A change is made to the counts of its own function, and to no others. -/
theorem counts_update {tally : Tally} (ordered : tally.Ordered) (labels other : Labels)
    (change : Counts → Counts) :
    (tally.update labels change).counts other =
      if other = labels then change (tally.counts labels) else tally.counts other := by
  induction tally with
  | nil => exact counts_cons labels _ [] other
  | cons head rest ih =>
    obtain ⟨key, counts⟩ := head
    have later := (List.pairwise_cons.mp ordered).1
    have inner := (List.pairwise_cons.mp ordered).2
    rw [update]
    split
    · rename_i same
      rw [counts_cons, counts_cons, counts_cons, same, if_pos rfl]
      split <;> rfl
    · rename_i different
      split
      · rename_i lower
        have fresh : Tally.counts ((key, counts) :: rest) labels = {} := by
          apply counts_of_before
          intro entry member
          rcases List.mem_cons.mp member with rfl | member
          · exact lower
          · exact Labels.before_trans lower (later entry member)
        rw [counts_cons, fresh]
      · rw [counts_cons, counts_cons, counts_cons, ih inner, if_neg (Ne.symm different)]
        by_cases found : other = key
        · have elsewhere : other ≠ labels := found ▸ different
          simp only [if_pos found, if_neg elsewhere]
        · simp only [if_neg found]

/-! Histories -/

/-- What is done with the measures of a program. A measure is known by its labels: all measures of a
function share its counts. -/
inductive Step : Type 1 where
  | made (labels : Labels)
  | called {ε α : Type} [Blame ε] (labels : Labels) (result : Except ε α)

namespace Step

def labels : Step → Labels
  | .made labels => labels
  | @called _ _ _ labels _ => labels

/-- A call of the function was measured. -/
def isCall (labels : Labels) : Step → Bool
  | .made _ => false
  | @called _ _ _ own _ => own == labels

/-- A call of the function was measured, and it returned an error that is to blame. -/
def isFault (labels : Labels) : Step → Bool
  | @called _ _ _ own (.error e) => own == labels && Blame.isFault e
  | _ => false

end Step

def step (tally : Tally) : Step → Tally
  | .made labels => tally.register labels
  | @Step.called _ _ _ labels result => (tally.measure labels result).2

/-- The tally after all that was done since a program started. -/
def after (steps : List Step) : Tally := steps.foldl step empty

theorem Ordered.step {tally : Tally} (ordered : tally.Ordered) (step : Step) :
    (tally.step step).Ordered := by
  cases step with
  | made labels => exact ordered.update labels id
  | called labels result => exact ordered.update labels _

/-- A step adds to the counts of its own function, if it is a call. -/
theorem counts_step {tally : Tally} (ordered : tally.Ordered) (step : Step) (labels : Labels) :
    (tally.step step).counts labels =
      if step.isCall labels then (tally.counts labels).add (step.isFault labels)
      else tally.counts labels := by
  cases step with
  | made own =>
    rw [Tally.step, register, counts_update ordered]
    split
    · rename_i same
      rw [same]
      rfl
    · rfl
  | called own result =>
    rw [Tally.step, measure, record, counts_update ordered]
    by_cases same : labels = own
    · subst same
      cases result <;> simp [Step.isCall, Step.isFault, Call.of]
    · have other : (own == labels) = false := beq_false_of_ne (Ne.symm same)
      simp [Step.isCall, Call.of, same, other]

theorem isCall_of_isFault {step : Step} {labels : Labels} (fault : step.isFault labels = true) :
    step.isCall labels = true := by
  cases step with
  | made own => cases fault
  | called own result =>
    cases result with
    | ok value => cases fault
    | error e => exact (Bool.and_eq_true_iff.mp fault).1

theorem ordered_foldl {tally : Tally} (ordered : tally.Ordered) (steps : List Step) :
    (steps.foldl step tally).Ordered := by
  induction steps generalizing tally with
  | nil => exact ordered
  | cons step rest ih => exact ih (ordered.step step)

/-- Steps add what they count to what was counted before them. -/
theorem counts_foldl {tally : Tally} (ordered : tally.Ordered) (steps : List Step)
    (labels : Labels) :
    ((steps.foldl step tally).counts labels).successes +
        ((steps.foldl step tally).counts labels).failures =
      (tally.counts labels).successes + (tally.counts labels).failures +
        steps.countP (Step.isCall labels) ∧
    ((steps.foldl step tally).counts labels).timings =
      (tally.counts labels).timings + steps.countP (Step.isCall labels) ∧
    ((steps.foldl step tally).counts labels).failures =
      (tally.counts labels).failures + steps.countP (Step.isFault labels) := by
  induction steps generalizing tally with
  | nil => exact ⟨rfl, rfl, rfl⟩
  | cons step rest ih =>
    have later := ih (ordered.step step)
    rw [counts_step ordered] at later
    rw [List.foldl_cons, List.countP_cons, List.countP_cons]
    by_cases call : step.isCall labels = true
    · rw [if_pos call] at later ⊢
      cases fault : step.isFault labels with
      | true =>
        simp only [fault, Counts.add, ↓reduceIte] at later ⊢
        omega
      | false =>
        simp only [fault, Counts.add, Bool.false_eq_true, ↓reduceIte] at later ⊢
        omega
    · have blameless : ¬step.isFault labels = true := fun fault => call (isCall_of_isFault fault)
      rw [if_neg call] at later ⊢
      rw [if_neg blameless]
      exact later

theorem ordered_after (steps : List Step) : (after steps).Ordered :=
  ordered_foldl ordered_empty steps

theorem after_concat (steps : List Step) (step : Step) :
    after (steps ++ [step]) = (after steps).step step := by
  rw [after, List.foldl_append]
  rfl

/-- After any steps, the calls of a function are what was counted of it: each as a success or as a
failure, and all as timed. The failures are the calls that returned an error to blame. A step
changes the counts of no other function, and a call's result is handed on as it is. To blame are
errors of unknown origin and variables without a value, but nothing that a text brings about. -/
theorem counts_after (steps : List Step) (labels : Labels) :
    ((after steps).counts labels).successes + ((after steps).counts labels).failures =
        ((after steps).counts labels).timings ∧
      ((after steps).counts labels).timings = steps.countP (Step.isCall labels) ∧
      ((after steps).counts labels).failures = steps.countP (Step.isFault labels) ∧
      (∀ step : Step, step.labels ≠ labels →
        (after (steps ++ [step])).counts labels = (after steps).counts labels) ∧
      (∀ (ε α : Type) [Blame ε] (result : Except ε α),
        ((after steps).measure labels result).1 = result) ∧
      Blame.isFault () = false ∧ (∀ e : OpaqueError, Blame.isFault e = true) ∧
      ∀ e : ExprError, Blame.isFault e = true ↔ ∃ name, e = .failed (.unbound name) := by
  obtain ⟨conserved, timed, failed⟩ := counts_foldl ordered_empty steps labels
  have none : Tally.counts empty labels = {} := rfl
  simp only [none, Nat.zero_add] at conserved timed failed
  refine ⟨conserved.trans timed.symm, timed, failed, ?_, fun _ _ _ _ => rfl, rfl, fun _ => rfl, ?_⟩
  · intro step other
    have elsewhere : step.isCall labels = false := by
      cases step with
      | made own => rfl
      | called own result => exact beq_false_of_ne other
    rw [after_concat, counts_step (ordered_after steps), elsewhere]
    rfl
  · intro e
    constructor
    · intro fault
      cases e with
      | rejected reason => cases fault
      | failed reason =>
        cases reason with
        | unbound name => exact ⟨name, rfl⟩
        | divisionByZero op => cases fault
    · rintro ⟨name, rfl⟩
      rfl

/-! Which functions are known -/

def keys (tally : Tally) : List Labels := tally.map Prod.fst

theorem mem_keys_update {tally : Tally} {labels other : Labels} {change : Counts → Counts} :
    other ∈ (tally.update labels change).keys ↔ other = labels ∨ other ∈ tally.keys := by
  induction tally with
  | nil => simp [update, keys]
  | cons head rest ih =>
    obtain ⟨key, counts⟩ := head
    rw [keys] at ih ⊢
    rw [update]
    split
    · rename_i same
      simp [keys, same]
    · split
      · simp [keys]
      · simp only [keys, List.map_cons, List.mem_cons] at ih ⊢
        rw [ih]
        exact or_left_comm

/-- In an ordered tally an entry holds the counts of its function. -/
theorem Ordered.counts_of_mem {tally : Tally} (ordered : tally.Ordered) {labels : Labels}
    {counts : Counts} (member : (labels, counts) ∈ tally) : tally.counts labels = counts := by
  induction tally with
  | nil => cases member
  | cons head rest ih =>
    obtain ⟨key, held⟩ := head
    obtain ⟨later, inner⟩ := List.pairwise_cons.mp ordered
    rw [counts_cons]
    rcases List.mem_cons.mp member with first | inside
    · cases first
      rw [if_pos rfl]
    · have other : labels ≠ key := by
        rintro rfl
        have lower := later _ inside
        rw [Labels.before_irrefl] at lower
        cases lower
      rw [if_neg other, ih inner inside]

theorem Ordered.eq_map_keys {tally : Tally} (ordered : tally.Ordered) :
    tally = tally.keys.map fun labels => (labels, tally.counts labels) := by
  have same : tally.map (fun entry => (entry.1, tally.counts entry.1)) = tally.map id :=
    List.map_congr_left fun entry member => by rw [ordered.counts_of_mem member, id]
  rw [keys, List.map_map]
  exact (same.trans (List.map_id tally)).symm

theorem mem_keys_step {tally : Tally} {step : Step} {labels : Labels} :
    labels ∈ (tally.step step).keys ↔ labels = step.labels ∨ labels ∈ tally.keys := by
  cases step with
  | made own => exact mem_keys_update
  | called own result => exact mem_keys_update

theorem mem_keys_foldl {tally : Tally} {steps : List Step} {labels : Labels} :
    labels ∈ (steps.foldl step tally).keys ↔
      labels ∈ tally.keys ∨ ∃ step ∈ steps, step.labels = labels := by
  induction steps generalizing tally with
  | nil => simp
  | cons step rest ih =>
    rw [List.foldl_cons, ih, mem_keys_step]
    simp only [List.mem_cons, exists_eq_or_imp]
    rw [@eq_comm _ step.labels labels, or_assoc, or_left_comm]

/-- A call of the function was measured, and it returned no error that is to blame. -/
def Step.isSuccess (labels : Labels) (step : Step) : Bool :=
  step.isCall labels && !step.isFault labels

/-- A call is a success or a failure. -/
theorem countP_isSuccess (steps : List Step) (labels : Labels) :
    steps.countP (Step.isSuccess labels) + steps.countP (Step.isFault labels) =
      steps.countP (Step.isCall labels) := by
  induction steps with
  | nil => rfl
  | cons step rest ih =>
    have call := @isCall_of_isFault step labels
    rw [List.countP_cons, List.countP_cons, List.countP_cons, ← ih]
    by_cases fault : step.isFault labels = true
    · simp [Step.isSuccess, fault, call fault, Nat.add_assoc]
    · simp [Step.isSuccess, fault, Nat.add_right_comm]

/-- The counts of a function after some steps are numbers of these steps. -/
theorem counted (steps : List Step) (labels : Labels) :
    ((after steps).counts labels).failures = steps.countP (Step.isFault labels) ∧
      ((after steps).counts labels).successes = steps.countP (Step.isSuccess labels) ∧
      ((after steps).counts labels).timings = steps.countP (Step.isCall labels) := by
  obtain ⟨both, timed, failed⟩ := counts_foldl ordered_empty steps labels
  have nothing : Tally.counts empty labels = {} := rfl
  have parts := countP_isSuccess steps labels
  simp only [nothing, Nat.zero_add] at both timed failed
  refine ⟨failed, ?_, timed⟩
  rw [after]
  omega

end Tally

end LineCalc
