import PerlRegex.Pattern.Verb
namespace PerlRegex.Pattern

/-! Readings that succeed, taken apart step by step. -/

namespace Reading

theorem bind_eq_ok {reading : Reading α} {next : α → Reading β} {result : β} :
    (reading >>= next) = .ok result ↔ ∃ value, reading = .ok value ∧ next value = .ok result := by
  cases reading with
  | error failure =>
      constructor
      · intro impossible
        cases impossible
      · rintro ⟨value, impossible, _⟩
        cases impossible
  | ok value =>
      constructor
      · intro read
        exact ⟨value, rfl, read⟩
      · rintro ⟨_, same, read⟩
        injection same with same
        rw [same]
        exact read

theorem pure_eq_ok {value result : α} : (pure value : Reading α) = .ok result ↔ value = result := by
  constructor
  · intro same
    injection same
  · intro same
    rw [same]
    rfl

theorem eq_error {Failure : Type} [DecidableEq Failure] {reading : Except Failure α}
    {failure : Failure}
    (evaluated : (match reading with
      | .ok _ => false
      | .error other => decide (other = failure)) = true) : reading = .error failure := by
  cases reading with
  | ok value => cases evaluated
  | error other => exact congrArg Except.error (of_decide_eq_true evaluated)

theorem exists_of_mem_mapM {read : α → Reading β} {list : List α} {results : List β}
    (succeeded : list.mapM read = .ok results) {result : β} (member : result ∈ results) :
    ∃ element ∈ list, read element = .ok result := by
  induction list generalizing results with
  | nil =>
      rw [List.mapM_nil, pure_eq_ok] at succeeded
      rw [← succeeded] at member
      simp at member
  | cons element list induction =>
      rw [List.mapM_cons] at succeeded
      rcases bind_eq_ok.mp succeeded with ⟨first, readFirst, succeeded⟩
      rcases bind_eq_ok.mp succeeded with ⟨rest, readRest, succeeded⟩
      rw [← pure_eq_ok.mp succeeded] at member
      rcases List.mem_cons.mp member with rfl | member
      · exact ⟨element, List.mem_cons_self, readFirst⟩
      · rcases induction readRest member with ⟨other, otherMember, readOther⟩
        exact ⟨other, List.mem_cons_of_mem element otherMember, readOther⟩

theorem exists_ok_of_mapM {read : α → Reading β} {list : List α} {results : List β}
    (succeeded : list.mapM read = .ok results) {element : α} (member : element ∈ list) :
    ∃ result, read element = .ok result := by
  induction list generalizing results with
  | nil => cases member
  | cons first list induction =>
      rw [List.mapM_cons] at succeeded
      rcases bind_eq_ok.mp succeeded with ⟨result, readFirst, succeeded⟩
      rcases bind_eq_ok.mp succeeded with ⟨rest, readRest, _⟩
      rcases List.mem_cons.mp member with rfl | member
      · exact ⟨result, readFirst⟩
      · exact induction readRest member

/-- What is kept in reading every element of a list is kept of the whole list. -/
theorem flatMap_of_mapM {read : α → Reading β} {give : α → List γ} {given : β → List γ}
    (keeps : ∀ element result, read element = .ok result → given result = give element)
    {list : List α} {results : List β} (succeeded : list.mapM read = .ok results) :
    results.flatMap given = list.flatMap give := by
  induction list generalizing results with
  | nil =>
      rw [List.mapM_nil, pure_eq_ok] at succeeded
      rw [← succeeded]
      rfl
  | cons element list induction =>
      rw [List.mapM_cons] at succeeded
      rcases bind_eq_ok.mp succeeded with ⟨first, readFirst, succeeded⟩
      rcases bind_eq_ok.mp succeeded with ⟨rest, readRest, succeeded⟩
      rw [← pure_eq_ok.mp succeeded, List.flatMap_cons, List.flatMap_cons,
        keeps element first readFirst, induction readRest]

/-! ## What a reading ensures -/

/-- A reading ensures a condition on what it read, or one on why it stopped. -/
def Ensures (failing : ReadFailure → Prop) (good : α → Prop) : Reading α → Prop
  | .ok value => good value
  | .error failure => failing failure

namespace Ensures

variable {failing : ReadFailure → Prop} {first : α → Prop} {good : β → Prop}

theorem bind {reading : Reading α} {next : α → Reading β}
    (begun : reading.Ensures failing first)
    (continued : ∀ value, first value → (next value).Ensures failing good) :
    (reading >>= next).Ensures failing good := by
  cases reading with
  | error failure => exact begun
  | ok value => exact continued value begun

theorem bind_of_forall {reading : Reading α} {next : α → Reading β}
    (begun : reading.Ensures failing fun _ => True)
    (continued : ∀ value, (next value).Ensures failing good) :
    (reading >>= next).Ensures failing good :=
  begun.bind fun value _ => continued value

theorem of_next {reading : Reading α} {next : α → Reading β}
    (continued : ∀ value, (next value).Ensures (fun _ => True) good) :
    (reading >>= next).Ensures (fun _ => True) good := by
  cases reading with
  | error failure => trivial
  | ok value => exact continued value

theorem of_ok {reading : Reading β} (ensures : reading.Ensures failing good) {value : β}
    (read : reading = .ok value) : good value := by
  rw [read] at ensures
  exact ensures

theorem imp {reading : Reading β} {failing' : ReadFailure → Prop} {good' : β → Prop}
    (ensures : reading.Ensures failing good)
    (stopped : ∀ failure, failing failure → failing' failure)
    (read : ∀ value, good value → good' value) : reading.Ensures failing' good' := by
  cases reading with
  | error failure => exact stopped failure ensures
  | ok value => exact read value ensures

theorem mapM {read : α → Reading β} {list : List α}
    (each : ∀ element ∈ list, (read element).Ensures failing fun _ => True) :
    (list.mapM read).Ensures failing fun _ => True := by
  induction list with
  | nil => exact trivial
  | cons element list induction =>
      rw [List.mapM_cons]
      apply bind (each element List.mem_cons_self)
      intro result _
      apply bind (induction fun other member => each other (List.mem_cons_of_mem element member))
      intro results _
      exact trivial

end Ensures

end Reading

@[simp] theorem refuse_ne_ok {kind : CompileErrorKind} {offset : Nat} {value : α} :
    refuse kind offset ≠ .ok value := by
  intro impossible
  cases impossible

@[simp] theorem refuseFor_ne_ok {fault : CompileFault} {offset : Nat} {value : α} :
    refuseFor fault offset ≠ .ok value := by
  intro impossible
  cases impossible

/-! ## Verbs -/

/-- A change of the options that each verb commutes with, as long as something holds of them that
the verb keeps, commutes with all verbs in front of a pattern. -/
theorem readVerbs_commutes (change : CompileOptions → CompileOptions)
    (holds : CompileOptions → Prop)
    (commutes : ∀ {options changed verb offset}, holds options →
      Verb.apply verb options offset = .ok changed →
        Verb.apply verb (change options) offset = .ok (change changed) ∧ holds changed)
    {options changed : CompileOptions} (begins : holds options) {text : List UInt8}
    {offset stop : Nat} (read : readVerbs options text offset = .ok (changed, stop)) :
    readVerbs (change options) text offset = .ok (change changed, stop) ∧ holds changed := by
  fun_induction readVerbs options text offset with
  | case1 options offset =>
      injection read with same
      injection same with same stop
      rw [readVerbs, ← same, ← stop]
      exact ⟨rfl, begins⟩
  | case2 options offset byte rest unnamed =>
      injection read with same
      injection same with same stop
      rw [readVerbs, unnamed, ← same, ← stop]
      exact ⟨rfl, begins⟩
  | case3 options offset byte rest name named unknown =>
      injection read with same
      injection same with same stop
      rw [readVerbs, named, ← same, ← stop]
      dsimp only
      rw [unknown]
      exact ⟨rfl, begins⟩
  | case4 => cases read
  | case5 options offset byte rest name named verb known changed applied induction =>
      rcases commutes begins applied with ⟨otherApplied, stillHolds⟩
      rw [readVerbs, named]
      dsimp only
      rw [known]
      dsimp only
      rw [otherApplied]
      exact induction stillHolds read

end PerlRegex.Pattern
