import Mathlib.Data.List.Induction

namespace Transition
variable {σ τ α β : Type*}

-- A system is a partial deterministic step function: the action carries the
-- whole choice of the environment. `none` is an action that cannot happen.
def exec (step : σ → α → Option σ) : σ → List α → Option σ
  | s,[] => some s
  | s,action :: rest => (step s action).bind (exec step · rest)

-- Runs whose every step meets `ok`, a condition on the state before the step
-- and on the action. Statements about a restricted set of parties, or about
-- runs that avoid one branch, are statements about one choice of `ok`.
inductive Run (step : σ → α → Option σ) (ok : σ → α → Prop) : σ → List α → σ → Prop where
  | nil : Run step ok s [] s
  | snoc : Run step ok s earlier t → ok t action → step t action = some u →
      Run step ok s (earlier++[action]) u

def Always (step : σ → α → Option σ) (P : σ → Prop) (s : σ) (actions : List α) : Prop :=
  ∀ earlier later t, actions = earlier ++ later → exec step s earlier = some t → P t

def EachStep (step : σ → α → Option σ) (Q : σ → α → Prop) (s : σ) (actions : List α) : Prop :=
  ∀ earlier action later t, actions = earlier ++ action :: later →
    exec step s earlier = some t → Q t action

section
variable {step : σ → α → Option σ} {ok weaker : σ → α → Prop} {s t u : σ}

theorem exec_append (one two : List α) :
    exec step s (one ++ two) = (exec step s one).bind (exec step · two) := by
  induction one generalizing s with
  | nil => rfl
  | cons action rest ih =>
    cases moved : step s action with
    | none => simp [exec,moved]
    | some next => simp [exec,moved,ih]

theorem exec_snoc (one : exec step s earlier = some t) (last : step t action = some u) :
    exec step s (earlier++[action]) = some u := by
  simp [exec_append,one,exec,last]

theorem Run.exec (path : Run step ok s actions t) : exec step s actions = some t := by
  induction path with
  | nil => rfl
  | snoc _ _ moved ih => exact exec_snoc ih moved

theorem Run.preserves (Inv : σ → Prop) (path : Run step ok s actions t)
    (kept : ∀ s a t, Inv s → ok s a → step s a = some t → Inv t) (start : Inv s) : Inv t := by
  induction path with
  | nil => exact start
  | snoc _ allowed moved ih => exact kept _ _ _ ih allowed moved

theorem Run.strengthen (Inv : σ → Prop) (path : Run step ok s actions t)
    (kept : ∀ s a t, Inv s → ok s a → step s a = some t → Inv t) (start : Inv s)
    (strong : ∀ s a, Inv s → ok s a → weaker s a) : Run step weaker s actions t := by
  induction path with
  | nil => exact .nil
  | snoc prior allowed moved ih =>
    exact .snoc ih (strong _ _ (prior.preserves Inv kept start) allowed) moved

theorem Run.split (path : Run step ok s actions u) (parts : actions = earlier ++ later) :
    ∃ t, Run step ok s earlier t ∧ Run step ok t later u := by
  induction path generalizing later with
  | nil =>
    obtain ⟨rfl,rfl⟩ := List.append_eq_nil_iff.mp parts.symm
    exact ⟨s,.nil,.nil⟩
  | @snoc prior middle last final before allowed moved ih =>
    rcases List.eq_nil_or_concat later with rfl | ⟨rest,tail,rfl⟩
    · rw [List.append_nil] at parts
      subst parts
      exact ⟨final,.snoc before allowed moved,.nil⟩
    · rw [List.concat_eq_append,← List.append_assoc] at parts
      obtain ⟨sameInit,sameLast⟩ := List.append_inj' parts rfl
      cases sameLast
      obtain ⟨t,left,right⟩ := ih sameInit
      refine ⟨t,left,?_⟩
      rw [List.concat_eq_append]
      exact .snoc right allowed moved

theorem Run.always {P : σ → Prop} (path : Run step ok s actions t)
    (each : ∀ earlier u, Run step ok s earlier u → P u) : Always step P s actions := by
  intro earlier later u parts reached
  obtain ⟨middle,left,_⟩ := path.split parts
  have same := left.exec
  rw [reached] at same
  cases Option.some.inj same
  exact each _ _ left

theorem Run.each (path : Run step ok s actions t) : EachStep step ok s actions := by
  induction path with
  | nil => intro earlier action later u parts _; simp at parts
  | @snoc prior before last after path allowed moved ih =>
    intro earlier action later u parts reached
    rcases List.eq_nil_or_concat later with rfl | ⟨rest,tail,rfl⟩
    · obtain ⟨rfl,equal⟩ := List.append_inj' parts rfl
      cases equal
      have same := path.exec
      rw [reached] at same
      cases Option.some.inj same
      exact allowed
    · rw [List.concat_eq_append,← List.cons_append,← List.append_assoc] at parts
      exact ih earlier action rest u (List.append_inj' parts rfl).1 reached

theorem exec_split (reached : exec step s (earlier ++ action :: later) = some t)
    (first : exec step s earlier = some u) :
    ∃ v, step u action = some v ∧ exec step s (earlier++[action]) = some v := by
  rw [exec_append,first,Option.bind_some] at reached
  obtain ⟨v,moved,_⟩ := Option.bind_eq_some_iff.mp reached
  exact ⟨v,moved,exec_snoc first moved⟩

theorem Always.each {P : σ → Prop} (always : Always step P s actions) (reached : exec step s actions = some t) :
    EachStep step (fun u action => ∃ v, step u action = some v ∧ P u ∧ P v) s actions := by
  intro earlier action later u parts path
  obtain ⟨v,moved,longer⟩ := exec_split (parts ▸ reached) path
  refine ⟨v,moved,always earlier (action :: later) u parts path,always (earlier++[action]) later v ?_ longer⟩
  simpa using parts

theorem EachStep.both {Q R : σ → α → Prop} (one : EachStep step Q s actions) (two : EachStep step R s actions) :
    EachStep step (fun u action => Q u action ∧ R u action) s actions :=
  fun earlier action later u parts path =>
    ⟨one earlier action later u parts path,two earlier action later u parts path⟩

@[simp] theorem eachStep_nil {Q : σ → α → Prop} : EachStep step Q s [] := by
  intro earlier action later u parts
  simp at parts

theorem eachStep_cons {Q : σ → α → Prop} : EachStep step Q s (action :: rest) ↔
    Q s action ∧ ∀ t, step s action = some t → EachStep step Q t rest := by
  constructor
  · intro each
    refine ⟨each [] action rest s rfl rfl,fun t moved earlier next later u parts reached => ?_⟩
    exact each (action :: earlier) next later u (by simp [parts]) (by simp [exec,moved,reached])
  · rintro ⟨first,others⟩ earlier next later u parts reached
    cases earlier with
    | nil =>
      obtain ⟨rfl,rfl⟩ := List.cons.inj parts
      cases Option.some.inj reached
      exact first
    | cons head tail =>
      obtain ⟨rfl,rest⟩ := List.cons.inj parts
      obtain ⟨t,moved,further⟩ := Option.bind_eq_some_iff.mp reached
      exact others t moved tail next later u rest further

theorem EachStep.all {Q : α → Prop} (every : ∀ action ∈ actions, Q action) :
    EachStep step (fun _ action => Q action) s actions :=
  fun _ action _ _ parts _ => every action (by simp [parts])

theorem EachStep.imp {Q R : σ → α → Prop} (old : EachStep step Q s actions)
    (weak : ∀ u action, Q u action → R u action) : EachStep step R s actions :=
  fun earlier action later u parts path => weak u action (old earlier action later u parts path)

theorem run_exact : Run step ok s actions t ↔ exec step s actions = some t ∧ EachStep step ok s actions := by
  refine ⟨fun path => ⟨path.exec,path.each⟩,?_⟩
  rintro ⟨reached,each⟩
  induction actions using List.reverseRecOn generalizing t with
  | nil => cases Option.some.inj reached; exact .nil
  | append_singleton earlier action ih =>
    rw [exec_append] at reached
    obtain ⟨middle,first,last⟩ := Option.bind_eq_some_iff.mp reached
    obtain ⟨next,moved,ended⟩ := Option.bind_eq_some_iff.mp last
    cases Option.some.inj ended
    refine .snoc (ih first ?_) (each earlier action [] middle rfl first) moved
    intro one a two u parts path
    exact each one a (two++[action]) u (by simp [parts]) path

theorem Run.check (ok : σ → α → Prop) (reached : Transition.exec step s actions = some t)
    (each : EachStep step ok s actions) :
    Run step ok s actions t := run_exact.mpr ⟨reached,each⟩

-- The system that refuses every step outside `ok`: evaluating it checks a run
-- together with a condition that has to be read off the states.
def guard (step : σ → α → Option σ) (ok : σ → α → Prop) [∀ s a, Decidable (ok s a)] (s : σ) (action : α) : Option σ :=
  if ok s action then step s action else none

theorem Run.guarded [∀ s a, Decidable (ok s a)] (reached : Transition.exec (guard step ok) s actions = some t) :
    Run step ok s actions t := by
  induction actions using List.reverseRecOn generalizing t with
  | nil => cases Option.some.inj reached; exact .nil
  | append_singleton earlier action ih =>
    rw [exec_append] at reached
    obtain ⟨middle,first,last⟩ := Option.bind_eq_some_iff.mp reached
    obtain ⟨next,moved,ended⟩ := Option.bind_eq_some_iff.mp last
    cases Option.some.inj ended
    unfold guard at moved
    split at moved
    · rename_i allowed; exact .snoc (ih first) allowed moved
    · cases moved

-- Some actions lead there. A sequential piece of code is compared with the steps
-- it is made of by this relation.
def Reaches (step : σ → α → Option σ) (s t : σ) : Prop := ∃ actions, exec step s actions = some t

theorem Reaches.refl : Reaches step s s := ⟨[],rfl⟩

theorem Reaches.head (action : α) (moved : step s action = some t) (rest : Reaches step t u) : Reaches step s u := by
  obtain ⟨actions,reached⟩ := rest
  exact ⟨action :: actions,by simp [Transition.exec,moved,reached]⟩

theorem Reaches.trans (one : Reaches step s t) (two : Reaches step t u) : Reaches step s u := by
  obtain ⟨first,here⟩ := one
  obtain ⟨second,there⟩ := two
  exact ⟨first ++ second,by rw [exec_append,here,Option.bind_some,there]⟩

theorem Reaches.simulate {step' : τ → β → Option τ} {v : τ} (R : σ → τ → Prop)
    (each : ∀ s action t v, R s v → step s action = some t → ∃ action' w, step' v action' = some w ∧ R t w)
    (start : R s v) (path : Reaches step s t) : ∃ w, Reaches step' v w ∧ R t w := by
  obtain ⟨actions,reached⟩ := path
  induction actions generalizing s v with
  | nil => cases Option.some.inj reached; exact ⟨v,.refl,start⟩
  | cons action rest ih =>
    obtain ⟨next,moved,further⟩ := Option.bind_eq_some_iff.mp reached
    obtain ⟨action',w,moved',related⟩ := each s action next v start moved
    obtain ⟨last,path',ended⟩ := ih related further
    exact ⟨last,.head action' moved' path',ended⟩

end
end Transition
