import AetherRelay.Lib.Transition

-- A state whose changes are also written down. Where every step writes down all
-- it does to some view of the state, the view can be had from the entries alone.
namespace Journal
variable {σ α ε ν : Type*}

def rebuild (apply : ε → ν → ν) (start : ν) (entries : List ε) : ν := entries.foldr apply start

section
variable {apply : ε → ν → ν} {start : ν}


@[simp] theorem rebuild_cons : rebuild apply start (entry :: older) = apply entry (rebuild apply start older) := rfl

theorem rebuild_append (newer older : List ε) :
    rebuild apply start (newer ++ older) = rebuild apply (rebuild apply start older) newer :=
  List.foldr_append

theorem rebuild_filter (concerns : ε → Bool) (quiet : ∀ entry v, concerns entry = false → apply entry v = v)
    (entries : List ε) : rebuild apply start (entries.filter concerns) = rebuild apply start entries := by
  induction entries with
  | nil => rfl
  | cons entry older ih =>
    cases heard : concerns entry with
    | true => rw [List.filter_cons_of_pos heard,rebuild_cons,rebuild_cons,ih]
    | false => rw [List.filter_cons_of_neg (by simp [heard]),rebuild_cons,quiet _ _ heard,ih]

end

def Told (log : σ → List ε) (view : σ → ν) (apply : ε → ν → ν) (s t : σ) : Prop :=
  ∃ new, log t = new ++ log s ∧ view t = rebuild apply (view s) new

section
variable {log : σ → List ε} {view : σ → ν} {apply : ε → ν → ν} {s t u : σ}

theorem Told.silent (entries : log t = log s) (same : view t = view s) : Told log view apply s t :=
  ⟨[],entries,same⟩

theorem Told.one (entry : ε) (entries : log t = entry :: log s) (does : view t = apply entry (view s)) :
    Told log view apply s t := ⟨[entry],entries,does⟩

theorem Told.trans (one : Told log view apply s t) (two : Told log view apply t u) : Told log view apply s u := by
  obtain ⟨first,logged,was⟩ := one
  obtain ⟨second,written,is⟩ := two
  refine ⟨second ++ first,?_,?_⟩
  · rw [written,logged,List.append_assoc]
  · rw [is,was,rebuild_append]

theorem Told.run {step : σ → α → Option σ} {ok : σ → α → Prop} (Inv : σ → Prop)
    (each : ∀ s a t, Inv s → ok s a → step s a = some t → Told log view apply s t)
    (kept : ∀ s a t, Inv s → ok s a → step s a = some t → Inv t)
    (path : Transition.Run step ok s actions t) (start : Inv s) : Told log view apply s t := by
  induction path with
  | nil => exact .silent rfl rfl
  | snoc prior allowed moved ih =>
    exact ih.trans (each _ _ _ (prior.preserves Inv kept start) allowed moved)

theorem Told.whole (told : Told log view apply s t) (blank : log s = []) :
    view t = rebuild apply (view s) (log t) := by
  obtain ⟨new,logged,is⟩ := told
  rw [is,logged,blank,List.append_nil]

end
end Journal
