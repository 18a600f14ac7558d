import KeepMyJournal.Base.Transition

/-!
# Objects with operations in flight

An object starts operations that complete later, in any order; the handler of a completion
changes the object and starts further operations. Besides, the object can be stopped, and while
an operation that reads is in flight it can be notified. A handler that is `none` does not return,
or its behaviour is not defined; the run ends in front of it.
-/

namespace KeepMyJournal.Base.Async

universe u

/-- What an object of type `σ` does on each occasion: the object it becomes and the operations
it starts. -/
structure Handlers (σ ν ω ρ : Type u) where
  stop : σ → σ × List ω
  notify : σ → ν → Option (σ × List ω)
  complete : σ → ω → ρ → Option (σ × List ω)
  reads : ω → Bool

/-- An object, its operations in flight, those among them that the last step started, and
whether the object has been told to stop. -/
structure InFlight (σ ω : Type u) where
  object : σ
  pending : List ω
  started : List ω
  stopped : Bool := false

/-- What can happen next. -/
inductive Event (ν ω ρ : Type u) where
  | stop
  | notify (n : ν)
  | complete (op : ω) (result : ρ)
  deriving DecidableEq, Repr

variable {σ ν ω ρ : Type u} [DecidableEq ω]

/-- The state right after the operations have been started on the object. -/
def InFlight.start (s : σ × List ω) : InFlight σ ω :=
  { object := s.1, pending := s.2, started := s.2 }

/-- One step: only an operation in flight completes, and it does so once. -/
def step (h : Handlers σ ν ω ρ) (s : InFlight σ ω) : Event ν ω ρ → Option (InFlight σ ω)
  | .stop =>
    let (object, started) := h.stop s.object
    some { object := object, pending := s.pending ++ started, started := started, stopped := true }
  | .notify n =>
    if s.pending.any h.reads then
      (h.notify s.object n).map (fun r ↦
        { object := r.1, pending := s.pending ++ r.2, started := r.2, stopped := s.stopped })
    else none
  | .complete op result =>
    if op ∈ s.pending then
      (h.complete s.object op result).map (fun r ↦
        { object := r.1
          pending := s.pending.erase op ++ r.2
          started := r.2
          stopped := s.stopped })
    else none

variable {h : Handlers σ ν ω ρ}

/-- A completion takes its operation out of flight and puts in what its handler starts. -/
theorem step_complete {s s' : InFlight σ ω} {op : ω} {result : ρ}
    (hs : step h s (.complete op result) = some s') :
    op ∈ s.pending ∧ ∃ object started, h.complete s.object op result = some (object, started) ∧
      s' = { object := object, pending := s.pending.erase op ++ started, started := started,
             stopped := s.stopped } := by
  unfold step at hs
  dsimp only at hs
  split at hs
  · next hm =>
    obtain ⟨r, hr, rfl⟩ := Option.map_eq_some_iff.mp hs
    exact ⟨hm, r.1, r.2, hr, rfl⟩
  · cases hs

/-- A notification comes during a read, and only adds operations. -/
theorem step_notify {s s' : InFlight σ ω} {n : ν} (hs : step h s (.notify n) = some s') :
    ∃ object started, h.notify s.object n = some (object, started) ∧
      s' = { object := object, pending := s.pending ++ started, started := started,
             stopped := s.stopped } := by
  unfold step at hs
  dsimp only at hs
  split at hs
  · obtain ⟨r, hr, rfl⟩ := Option.map_eq_some_iff.mp hs
    exact ⟨r.1, r.2, hr, rfl⟩
  · cases hs

/-- Once the object has been told to stop, the step starts no operation of the kind. -/
def Quiet (kind : ω → Bool) (s : InFlight σ ω) (_ : Event ν ω ρ) (s' : InFlight σ ω) : Prop :=
  s.stopped = true → ∀ op ∈ s'.started, kind op = false

/-- A run is quiet after the stop if and only if all its events after the stop are harmless,
where an event is harmless for an object when its step starts no operation of the kind. What
the stop establishes of the object may be used, if all later steps keep it. -/
theorem along_quiet_iff {kind : ω → Bool} {Harmless : σ → Event ν ω ρ → Prop} {J : σ → Prop}
    (hiff : ∀ s e s', (s.stopped = true → J s.object) → step h s e = some s' → s.stopped = true →
      ((∀ op ∈ s'.started, kind op = false) ↔ Harmless s.object e))
    (hkeep : ∀ s e s', (s.stopped = true → J s.object) → step h s e = some s' →
      s'.stopped = true → J s'.object)
    {s : InFlight σ ω} (hs : s.stopped = true → J s.object) {es : List (Event ν ω ρ)} :
    Transition.Along (step h) (Quiet kind) s es ↔
      Transition.Along (step h) (fun s e _ ↦ s.stopped = true → Harmless s.object e) s es := by
  apply Transition.along_congr (I := fun s ↦ s.stopped = true → J s.object)
  · intro s e _ s' hJ hstep
    exact imp_congr_right (hiff s e s' hJ hstep)
  · intro s e _ s' hJ hstep _
    exact hkeep s e s' hJ hstep
  · exact hs

/-- Where the stop establishes nothing that is needed, the judgement of single steps is enough. -/
theorem along_quiet_iff_of_step {kind : ω → Bool} {Harmless : σ → Event ν ω ρ → Prop}
    (hiff : ∀ s e s', step h s e = some s' →
      ((∀ op ∈ s'.started, kind op = false) ↔ Harmless s.object e))
    {s : InFlight σ ω} {es : List (Event ν ω ρ)} :
    Transition.Along (step h) (Quiet kind) s es ↔
      Transition.Along (step h) (fun s e _ ↦ s.stopped = true → Harmless s.object e) s es := by
  apply Transition.along_congr_of_step
  intro s e s' hstep
  exact imp_congr_right fun _ ↦ hiff s e s' hstep

end KeepMyJournal.Base.Async
