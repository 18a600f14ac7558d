import Mathlib.Logic.Function.Basic

/-!
# Runs of a partial step function

A system is a step function `σ → ε → Option σ`: `none` says that the event is not enabled.
A run is a list of events. `Along` says that a relation between the state before, the event
and the state after holds at every step of a run; the rules below prove it by an invariant,
or trade it for another relation under one.
-/

namespace KeepMyJournal.Base.Transition

universe u v w x

variable {σ : Type u} {ε : Type v} (step : σ → ε → Option σ)

/-- The state a run ends in, when every event of it is enabled in turn. -/
def run (s : σ) (es : List ε) : Option σ := es.foldlM step s

/-- `Φ` relates the two states of every step the run takes; a disabled event ends the run. -/
def Along (Φ : σ → ε → σ → Prop) : σ → List ε → Prop
  | _, [] => True
  | s, e :: es => ∀ s', step s e = some s' → Φ s e s' ∧ Along Φ s' es

variable {step}

@[simp] theorem run_nil (s : σ) : run step s [] = some s := rfl

@[simp] theorem run_cons (s : σ) (e : ε) (es : List ε) :
    run step s (e :: es) = (step s e).bind (fun s' ↦ run step s' es) := rfl

theorem run_concat (s : σ) (es : List ε) (e : ε) :
    run step s (es ++ [e]) = (run step s es).bind fun t ↦ step t e := by
  rw [run, List.foldlM_append]
  refine congrArg (run step s es).bind ?_
  funext t
  exact Option.bind_fun_some (step t e)

instance decidableAlong (step : σ → ε → Option σ) (Φ : σ → ε → σ → Prop)
    [∀ s e s', Decidable (Φ s e s')] : ∀ s es, Decidable (Along step Φ s es)
  | _, [] => .isTrue True.intro
  | s, e :: es =>
    match h : step s e with
    | none => .isTrue (fun _ h' ↦ absurd (h.symm.trans h') nofun)
    | some t =>
      have := decidableAlong step Φ t es
      decidable_of_iff (Φ s e t ∧ Along step Φ t es)
        ⟨fun ht _ h' ↦ Option.some.inj (h.symm.trans h') ▸ ht, fun ht ↦ ht t h⟩

/-- `Along` speaks of exactly the steps that follow some enabled prefix of the run. -/
theorem along_iff_prefix {Φ : σ → ε → σ → Prop} {s : σ} {es : List ε} :
    Along step Φ s es ↔
      ∀ pre e post, es = pre ++ e :: post → ∀ t t', run step s pre = some t →
        step t e = some t' → Φ t e t' := by
  induction es generalizing s with
  | nil => simp [Along]
  | cons e es ih =>
    constructor
    · intro h pre f post he t t' hr ht
      cases pre with
      | nil =>
        obtain ⟨rfl, rfl⟩ := List.cons.inj he
        rw [run_nil, Option.some.injEq] at hr
        subst t
        exact (h t' ht).1
      | cons e' pre =>
        obtain ⟨rfl, rfl⟩ := List.cons.inj he
        rw [run_cons, Option.bind_eq_some_iff] at hr
        obtain ⟨u, hu, hr⟩ := hr
        exact ih.mp (h u hu).2 pre f post rfl t t' hr ht
    · intro h s' hs'
      refine ⟨h [] e es rfl s s' rfl hs', ih.mpr ?_⟩
      intro pre f post he t t' hr ht
      refine h (e :: pre) f post (by rw [he, List.cons_append]) t t' ?_ ht
      rw [run_cons, hs']
      exact hr

/-- What the first state satisfies and every step keeps, the last state satisfies. -/
theorem inv_run {I : σ → Prop} (hstep : ∀ s e s', I s → step s e = some s' → I s')
    {s : σ} (hs : I s) {es : List ε} {t : σ} (hrun : run step s es = some t) : I t := by
  induction es generalizing s with
  | nil =>
    obtain rfl := Option.some.inj hrun
    exact hs
  | cons e es ih =>
    rw [run_cons, Option.bind_eq_some_iff] at hrun
    obtain ⟨u, hu, hrun⟩ := hrun
    exact ih (hstep s e u hs hu) hrun

/-- The same for an invariant that mentions the events of the run. -/
theorem inv_run_of_mem {I : σ → Prop} {s : σ} {es : List ε} {t : σ}
    (hstep : ∀ s, ∀ e ∈ es, ∀ s', I s → step s e = some s' → I s') (hs : I s)
    (hrun : run step s es = some t) : I t := by
  induction es generalizing s with
  | nil =>
    obtain rfl := Option.some.inj hrun
    exact hs
  | cons e es ih =>
    rw [run_cons, Option.bind_eq_some_iff] at hrun
    obtain ⟨u, hu, hrun⟩ := hrun
    refine ih (fun s f hf ↦ hstep s f (List.mem_cons_of_mem e hf)) ?_ hrun
    exact hstep s e List.mem_cons_self u hs hu

/-- A component that every step of a system leaves alone, or has take a step of its own, has a run
of its own in every run of the system. -/
theorem exists_run_of_component {τ : Type w} {φ : Type v} {step' : τ → φ → Option τ} {f : σ → τ}
    (hstep : ∀ s e s', step s e = some s' → f s' = f s ∨ ∃ e', step' (f s) e' = some (f s'))
    {s : σ} {es : List ε} {t : σ} (hrun : run step s es = some t) :
    ∃ es', run step' (f s) es' = some (f t) := by
  induction es generalizing s with
  | nil =>
    obtain rfl := Option.some.inj hrun
    exact ⟨[], rfl⟩
  | cons e es ih =>
    rw [run_cons, Option.bind_eq_some_iff] at hrun
    obtain ⟨u, hu, hrun⟩ := hrun
    obtain ⟨es', hes⟩ := ih hrun
    rcases hstep s e u hu with hsame | ⟨e', he⟩
    · exact ⟨es', hsame ▸ hes⟩
    · refine ⟨e' :: es', ?_⟩
      rw [run_cons, he]
      exact hes

/-- The same for each member of a family of components of which a step moves one at most. -/
theorem exists_run_of_family {κ : Type u} [DecidableEq κ] {τ : κ → Type w} {φ : κ → Type v}
    {step' : ∀ k, τ k → φ k → Option (τ k)} {f : σ → ∀ k, τ k}
    (hstep : ∀ s e s', step s e = some s' → f s' = f s ∨
      ∃ k e' c, step' k (f s k) e' = some c ∧ f s' = Function.update (f s) k c)
    {s : σ} {es : List ε} {t : σ} (hrun : run step s es = some t) (k : κ) :
    ∃ es', run (step' k) (f s k) es' = some (f t k) := by
  refine exists_run_of_component (f := fun s ↦ f s k) (fun s e s' hs ↦ ?_) hrun
  rcases hstep s e s' hs with hsame | ⟨moved, e', c, hc, hupdate⟩
  · exact .inl (congrFun hsame k)
  · rw [hupdate]
    by_cases hk : k = moved
    · subst hk
      rw [Function.update_self]
      exact .inr ⟨e', hc⟩
    · rw [Function.update_of_ne hk]
      exact .inl rfl

/-- Where the event tells which step the component takes, that run is known. -/
theorem run_of_component {τ : Type w} {φ : Type x} {step' : τ → φ → Option τ} {f : σ → τ}
    {of : ε → Option φ}
    (hnone : ∀ s e s', step s e = some s' → of e = none → f s' = f s)
    (hsome : ∀ s e s' e', step s e = some s' → of e = some e' → step' (f s) e' = some (f s'))
    {s : σ} {es : List ε} {t : σ} (hrun : run step s es = some t) :
    run step' (f s) (es.filterMap of) = some (f t) := by
  induction es generalizing s with
  | nil =>
    obtain rfl := Option.some.inj hrun
    rfl
  | cons e es ih =>
    rw [run_cons, Option.bind_eq_some_iff] at hrun
    obtain ⟨u, hu, hrun⟩ := hrun
    cases he : of e with
    | none =>
      rw [List.filterMap_cons_none he, ← hnone s e u hu he]
      exact ih hrun
    | some e' =>
      rw [List.filterMap_cons_some he, run_cons, hsome s e u e' hu he]
      exact ih hrun

/-- Steps that put something out, with the record of all they have put out. -/
def logged {β : Type w} (step : σ → ε → Option (σ × List β)) (s : σ × List β) (e : ε) :
    Option (σ × List β) :=
  (step s.1 e).map fun r ↦ (r.1, s.2 ++ r.2)

theorem of_logged {β : Type w} {step : σ → ε → Option (σ × List β)} {s s' : σ × List β} {e : ε}
    (h : logged step s e = some s') :
    ∃ out, step s.1 e = some (s'.1, out) ∧ s'.2 = s.2 ++ out := by
  obtain ⟨r, hr, rfl⟩ := Option.map_eq_some_iff.mp h
  exact ⟨r.2, hr, rfl⟩

/-- A record to which every step appends what its event says holds in the end what the events
of the run say, one after the other. -/
theorem log_run {β : Type w} {f : σ → List β} {of : ε → List β}
    (hstep : ∀ s e s', step s e = some s' → f s' = f s ++ of e) {s : σ} {es : List ε} {t : σ}
    (hrun : run step s es = some t) : f t = f s ++ es.flatMap of := by
  induction es generalizing s with
  | nil =>
    obtain rfl := Option.some.inj hrun
    exact (List.append_nil _).symm
  | cons e es ih =>
    rw [run_cons, Option.bind_eq_some_iff] at hrun
    obtain ⟨u, hu, hrun⟩ := hrun
    rw [ih hrun, hstep s e u hu, List.flatMap_cons, List.append_assoc]

/-- The same up to the order, for steps between states of `I`. -/
theorem perm_log_run {β : Type w} {I : σ → Prop} {log : σ → List β} {of : ε → List β}
    (hstep : ∀ s e s', I s → step s e = some s' → I s' ∧ (log s').Perm (log s ++ of e)) {s : σ}
    (hs : I s) {es : List ε} {t : σ} (hrun : run step s es = some t) :
    (log t).Perm (log s ++ es.flatMap of) := by
  induction es generalizing s with
  | nil =>
    obtain rfl := Option.some.inj hrun
    rw [List.flatMap_nil, List.append_nil]
  | cons e es ih =>
    rw [run_cons, Option.bind_eq_some_iff] at hrun
    obtain ⟨u, hu, hrun⟩ := hrun
    obtain ⟨hI, hlog⟩ := hstep s e u hs hu
    rw [List.flatMap_cons, ← List.append_assoc]
    exact (ih hI hrun).trans (hlog.append_right _)

/-- An invariant that survives the steps at which `Φ` holds survives a run along which it does. -/
theorem inv_run_of_along {Φ : σ → ε → σ → Prop} {I : σ → Prop}
    (hstep : ∀ s e s', I s → step s e = some s' → Φ s e s' → I s') {s : σ} (hs : I s)
    {es : List ε} (h : Along step Φ s es) {t : σ} (hrun : run step s es = some t) : I t := by
  induction es generalizing s with
  | nil =>
    obtain rfl := Option.some.inj hrun
    exact hs
  | cons e es ih =>
    rw [run_cons, Option.bind_eq_some_iff] at hrun
    obtain ⟨u, hu, hrun⟩ := hrun
    obtain ⟨hΦ, hrest⟩ := h u hu
    exact ih (hstep s e u hs hu hΦ) hrest hrun

/-- The rule of invariants: where `Ψ` holds at a step from a state of `I`, so does `Φ`,
and `I` holds after it. -/
theorem along_of_inv {Φ Ψ : σ → ε → σ → Prop} {I : σ → Prop} {s : σ} {es : List ε}
    (hstep : ∀ s, ∀ e ∈ es, ∀ s', I s → step s e = some s' → Ψ s e s' → Φ s e s' ∧ I s')
    (hs : I s) (h : Along step Ψ s es) : Along step Φ s es := by
  induction es generalizing s with
  | nil => exact True.intro
  | cons e es ih =>
    intro s' hs'
    obtain ⟨hΨ, hrest⟩ := h s' hs'
    obtain ⟨hΦ, hI⟩ := hstep s e List.mem_cons_self s' hs hs' hΨ
    exact ⟨hΦ, ih (fun t f hf ↦ hstep t f (List.mem_cons_of_mem e hf)) hI hrest⟩

/-- Two relations agree along a run along which `Θ` holds, if they agree at its steps from states
of `I`, and `I` survives the steps at which they hold. -/
theorem along_congr_under {Θ Φ Ψ : σ → ε → σ → Prop} {I : σ → Prop} {s : σ} {es : List ε}
    (hstep : ∀ s e s', I s → step s e = some s' → Θ s e s' →
      (Φ s e s' ↔ Ψ s e s') ∧ (Ψ s e s' → I s'))
    (hs : I s) (h : Along step Θ s es) : Along step Φ s es ↔ Along step Ψ s es := by
  induction es generalizing s with
  | nil => exact Iff.rfl
  | cons e es ih =>
    apply forall_congr'
    intro s'
    apply imp_congr_right
    intro hs'
    obtain ⟨hΘ, hrest⟩ := h s' hs'
    obtain ⟨hiff, hI⟩ := hstep s e s' hs hs' hΘ
    rw [hiff]
    exact and_congr_right fun hΨ ↦ ih (hI hΨ) hrest

/-- Where `I` survives every step at which `Θ` holds, it need not be argued from the relations. -/
theorem along_congr_of_along {Θ Φ Ψ : σ → ε → σ → Prop} {I : σ → Prop} {s : σ} {es : List ε}
    (hstep : ∀ s e s', I s → step s e = some s' → Θ s e s' → (Φ s e s' ↔ Ψ s e s') ∧ I s')
    (hs : I s) (h : Along step Θ s es) : Along step Φ s es ↔ Along step Ψ s es :=
  along_congr_under (fun s e s' hI hs' hΘ ↦ (hstep s e s' hI hs' hΘ).imp_right fun hI' _ ↦ hI')
    hs h

/-- What holds of every step holds along every run. -/
theorem along_of_step {Φ : σ → ε → σ → Prop} (hstep : ∀ s e s', step s e = some s' → Φ s e s')
    {s : σ} {es : List ε} : Along step Φ s es := by
  induction es generalizing s with
  | nil => exact True.intro
  | cons e es ih =>
    intro s' hs'
    exact ⟨hstep s e s' hs', ih⟩

/-- Two relations that agree at the steps from states of `I` agree along a run, where `I`
need only survive the steps at which they hold. -/
theorem along_congr {Φ Ψ : σ → ε → σ → Prop} {I : σ → Prop} {s : σ} {es : List ε}
    (hiff : ∀ s, ∀ e ∈ es, ∀ s', I s → step s e = some s' → (Φ s e s' ↔ Ψ s e s'))
    (hinv : ∀ s, ∀ e ∈ es, ∀ s', I s → step s e = some s' → Φ s e s' → I s')
    (hs : I s) : Along step Φ s es ↔ Along step Ψ s es := by
  constructor
  · refine along_of_inv (fun t e he t' ht hstep hΦ ↦ ?_) hs
    exact ⟨(hiff t e he t' ht hstep).mp hΦ, hinv t e he t' ht hstep hΦ⟩
  · refine along_of_inv (fun t e he t' ht hstep hΨ ↦ ?_) hs
    have hΦ := (hiff t e he t' ht hstep).mpr hΨ
    exact ⟨hΦ, hinv t e he t' ht hstep hΦ⟩

/-- Two relations that agree at every step agree along every run. -/
theorem along_congr_of_step {Φ Ψ : σ → ε → σ → Prop} {s : σ} {es : List ε}
    (hiff : ∀ s e s', step s e = some s' → (Φ s e s' ↔ Ψ s e s')) :
    Along step Φ s es ↔ Along step Ψ s es := by
  apply along_congr (I := fun _ ↦ True)
  · intro s e _ s' _ hstep
    exact hiff s e s' hstep
  · intro _ _ _ _ _ _ _
    exact True.intro
  · exact True.intro

end KeepMyJournal.Base.Transition
