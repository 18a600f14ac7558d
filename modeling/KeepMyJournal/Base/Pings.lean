import KeepMyJournal.Base.Queued

/-!
# Pings on a connection

An object that connects in a chain of operations and then pings its peer: a timer is made once
the connection stands, each wait on it that ends starts a ping, and each ping waits again, for
as long as one of a list of endpoints says. On an error the timer is dropped and the chain
begins anew. A ping whose handler runs without a timer or without an endpoint is undefined.
-/

namespace KeepMyJournal.Base.Queued

/-- What an operation is for. -/
inductive Role where
  | opening | connecting | handshake | connected
  | wait | ping
  deriving DecidableEq, Repr

/-- The role is in the chain of the connection. -/
def Role.isChain : Role → Bool
  | wait | ping => false
  | _ => true

/-- What is seen of an object that pings: the roles of its operations, whether it has a timer
and whether it has an endpoint, the results that are no error, and the operations whose handler
drops the timer and begins anew. -/
structure PingView (σ ω ρ : Type) where
  role : ω → Role
  timer : σ → Bool
  endpoint : σ → Bool
  ok : ρ → Bool
  retries : ω → ρ → Bool

namespace PingView

variable {σ ω ρ : Type} (v : PingView σ ω ρ)

/-- What the object is like while an operation is pending. -/
def Fits (s : σ) (op : ω) : Prop :=
  match v.role op with
  | .opening => v.timer s = false
  | .connecting | .handshake => v.timer s = false ∧ v.endpoint s = true
  | .connected | .wait => True
  | .ping => v.timer s = true

variable {v} in
/-- Reads and writes of a connection that stands fit any object. -/
theorem fits_of_connected {s : σ} {op : ω} (hop : v.role op = .connected) : v.Fits s op := by
  unfold Fits
  rw [hop]
  exact True.intro

/-- What the handler of an operation does to what is seen of the object. -/
inductive Outcome (s : σ) (op : ω) (result : ρ) (r : σ × List ω) : Prop
  | goesOn (hop : (v.role op).isChain = true) (hretries : v.retries op result = false)
      (htimer : v.timer r.1 = v.timer s)
      (hendpoint : v.timer s = true → v.endpoint r.1 = v.endpoint s) (hlen : r.2.length ≤ 1)
      (hnext : ∀ next ∈ r.2, (v.role next).isChain = true ∧ v.Fits r.1 next)
  | stands (hop : v.role op = .handshake) (hretries : v.retries op result = false)
      (htimer : v.timer r.1 = true) (hendpoint : v.endpoint r.1 = true) {wait read : ω}
      (hwait : v.role wait = .wait) (hread : v.role read = .connected) (hnext : r.2 = [wait, read])
  | beginsAnew (hop : (v.role op).isChain = true) (hretries : v.retries op result = true)
      (htimer : v.timer r.1 = false) (hlen : r.2.length ≤ 1)
      (hnext : ∀ next ∈ r.2, v.role next = .opening)
  | ticks (hop : v.role op = .wait) (hretries : v.retries op result = false) (hobject : r.1 = s)
      {ping : ω} (hping : v.role ping = .ping)
      (hnext : r.2 = if v.ok result = true then [ping] else [])
  | waits (hop : v.role op = .ping) (hretries : v.retries op result = false) (hobject : r.1 = s)
      (hnext : ∀ next ∈ r.2, v.role next = .wait)

/-- The operations whose handlers need a timer or an endpoint. -/
def needs (op : ω) : Bool := v.role op = .ping || v.role op = .handshake

/-- The chain does not begin anew while a ping is pending, and no wait that ended without an
error starts one while there is no timer. -/
def Spares (s : State σ ω ρ) : Event Empty ω ρ → Prop
  | .handle op result =>
    (v.retries op result = true → ∀ p ∈ s.pending, v.role p.op ≠ .ping) ∧
      (v.role op = .wait → v.ok result = true → v.timer s.object = true)
  | _ => True

/-- What is pending fits the object, with one operation of the chain at most, and a timer comes
with an endpoint. -/
structure Inv (s : State σ ω ρ) : Prop where
  chained : Chained (fun op ↦ (v.role op).isChain) (fun o p ↦ v.Fits o p.op) s
  endpoint : v.timer s.object = true → v.endpoint s.object = true

end PingView

/-- Handlers that a view describes. They receive no notifications. -/
structure Pinging {σ ω ρ : Type} (h : Async.Handlers σ Empty ω ρ) (v : PingView σ ω ρ) :
    Prop where
  stop : ∀ s, h.stop s = (s, [])
  outcome : ∀ s op result r, v.Fits s op → h.complete s op result = some r →
    v.Outcome s op result r
  ping : ∀ s op result, v.role op = .ping →
    (h.complete s op result ≠ none ↔ v.timer s = true ∧ v.endpoint s = true)
  handshake : ∀ s op result, v.role op = .handshake → v.endpoint s = true →
    h.complete s op result ≠ none

namespace Pinging

variable {σ ω ρ : Type} {h : Async.Handlers σ Empty ω ρ} {v : PingView σ ω ρ} {m : Rules ω ρ}
  {s s' : State σ ω ρ} {p : Pending ω ρ}

private theorem defined_of_inv (hp : Pinging h v) (hs : v.Inv s) : Defined h v.needs s := by
  intro p hmem hneeds result _
  have hfits := hs.chained.fits p hmem
  unfold PingView.needs at hneeds
  rw [Bool.or_eq_true, decide_eq_true_eq, decide_eq_true_eq] at hneeds
  unfold PingView.Fits at hfits
  rcases hneeds with hping | hhandshake
  · rw [hping] at hfits
    exact (hp.ping s.object p.op result hping).mpr ⟨hfits, hs.endpoint hfits⟩
  · rw [hhandshake] at hfits
    exact hp.handshake s.object p.op result hhandshake hfits.2

/-- A ping is undefined while there is no timer. -/
private theorem not_defined_of_mem (hp : Pinging h v) (hmem : p ∈ s.pending)
    (hping : v.role p.op = .ping) (htimer : v.timer s.object = false) (result : ρ) :
    ¬Defined h v.needs s := by
  intro hdefined
  have hneeds : v.needs p.op = true := by
    unfold PingView.needs
    rw [hping]
    rfl
  have hnone : ∀ result, ¬h.complete s.object p.op result ≠ none := by
    intro result hsome
    cases htimer.symm.trans ((hp.ping s.object p.op result hping).mp hsome).1
  cases hresult : p.result with
  | none => exact hnone result (hdefined p hmem hneeds result (.inl hresult))
  | some result => exact hnone result (hdefined p hmem hneeds result (.inr hresult))

/-- What is pending beside a handler that keeps the timer still fits. -/
private theorem fits_of_timer_eq {o o' : σ} {op : ω} (htimer : v.timer o' = v.timer o)
    (hop : (v.role op).isChain = false) (hfits : v.Fits o op) : v.Fits o' op := by
  unfold PingView.Fits at hfits ⊢
  cases hrole : v.role op with
  | wait => exact True.intro
  | ping =>
    rw [hrole] at hfits
    exact htimer.trans hfits
  | _ =>
    rw [hrole] at hop
    cases hop

variable [DecidableEq ω] [DecidableEq ρ]

/-- The handler of an operation of the chain hands the chain on. -/
private theorem chained_moved (hs : v.Inv s) (hp : p ∈ s.pending)
    (hop : (v.role p.op).isChain = true) {r : σ × List ω}
    (hcount : r.2.countP (fun op ↦ (v.role op).isChain) ≤ 1)
    (hrest : ∀ q ∈ s.pending, (v.role q.op).isChain = false → v.Fits r.1 q.op)
    (hnext : ∀ next ∈ r.2, v.Fits r.1 next) :
    Chained (fun op ↦ (v.role op).isChain) (fun o p ↦ v.Fits o p.op)
      (m.put (s.pending.erase p) r) := by
  apply chained_put
  · have hone := hs.chained.one
    rw [← countP_erase (fun op ↦ (v.role op).isChain) hp, if_pos hop] at hone
    omega
  · intro q hq
    rw [op_endBy]
    exact hrest q (List.mem_of_mem_erase hq) (hs.chained.not_chain_of_mem_erase hp hop hq)
  · exact hnext

/-- A handler that keeps the object and starts nothing of the chain. -/
private theorem inv_kept (hs : v.Inv s) {started : List ω}
    (hstarted : ∀ next ∈ started, (v.role next).isChain = false ∧ v.Fits s.object next) :
    v.Inv (m.put (s.pending.erase p) (s.object, started)) := by
  refine ⟨chained_put ?_ ?_ ?_, hs.endpoint⟩
  · have hnone : started.countP (fun op ↦ (v.role op).isChain) = 0 :=
      List.countP_eq_zero.mpr fun next hnext ↦ Bool.eq_false_iff.mp (hstarted next hnext).1
    change _ + started.countP (fun op ↦ (v.role op).isChain) ≤ 1
    rw [hnone]
    exact Nat.le_trans List.erase_sublist.countP_le hs.chained.one
  · intro q hq
    dsimp only
    rw [op_endBy]
    exact hs.chained.fits q (List.mem_of_mem_erase hq)
  · exact fun next hnext ↦ (hstarted next hnext).2

/-- A handler that spares the pings keeps the invariant. -/
private theorem inv_handle {op : ω} {result : ρ} (hs : v.Inv s)
    (hmem : { op := op, result := some result } ∈ s.pending) {r : σ × List ω}
    (hr : v.Outcome s.object op result r) (hspares : v.Spares s (.handle op result)) :
    v.Inv (m.put (s.pending.erase { op := op, result := some result }) r) := by
  cases hr with
  | goesOn hop hretries htimer hendpoint hlen hnext =>
    refine ⟨chained_moved hs hmem hop (Nat.le_trans List.countP_le_length hlen) ?_
      fun next h ↦ (hnext next h).2, ?_⟩
    · exact fun q hq hchain ↦ fits_of_timer_eq htimer hchain (hs.chained.fits q hq)
    · intro hon
      have hon' := htimer.symm.trans hon
      exact (hendpoint hon').trans (hs.endpoint hon')
  | @stands hop hretries htimer hendpoint wait read hwait hread hnext =>
    have hchain : (v.role op).isChain = true := by rw [hop]; rfl
    refine ⟨chained_moved hs hmem hchain ?_ ?_ ?_, fun _ ↦ hendpoint⟩
    · rw [hnext]
      simp [hwait, hread, Role.isChain]
    · intro q hq hq'
      unfold PingView.Fits
      cases hrole : v.role q.op with
      | wait => exact True.intro
      | ping => exact htimer
      | _ =>
        rw [hrole] at hq'
        cases hq'
    · intro next hmem'
      rw [hnext, List.mem_cons, List.mem_singleton] at hmem'
      rcases hmem' with rfl | rfl
      · unfold PingView.Fits
        rw [hwait]
        exact True.intro
      · exact PingView.fits_of_connected hread
  | beginsAnew hop hretries htimer hlen hnext =>
    refine ⟨chained_moved hs hmem hop (Nat.le_trans List.countP_le_length hlen) ?_ ?_, ?_⟩
    · intro q hq hq'
      unfold PingView.Fits
      cases hrole : v.role q.op with
      | wait => exact True.intro
      | ping => exact absurd hrole (hspares.1 hretries q hq)
      | _ =>
        rw [hrole] at hq'
        cases hq'
    · intro next hmem'
      unfold PingView.Fits
      rw [hnext next hmem']
      exact htimer
    · intro hon
      cases htimer.symm.trans hon
  | @ticks hop hretries hobject ping hping hnext =>
    obtain ⟨o, started⟩ := r
    obtain rfl : o = s.object := hobject
    obtain rfl : started = if v.ok result = true then [ping] else [] := hnext
    apply inv_kept hs
    intro next hmem'
    split at hmem'
    · next hok =>
      rw [List.mem_singleton.mp hmem']
      unfold PingView.Fits
      rw [hping]
      exact ⟨rfl, hspares.2 hop hok⟩
    · cases hmem'
  | waits hop hretries hobject hnext =>
    obtain ⟨o, started⟩ := r
    obtain rfl : o = s.object := hobject
    apply inv_kept hs
    intro next hmem'
    unfold PingView.Fits
    rw [hnext next hmem']
    exact ⟨rfl, True.intro⟩

/-- A step that spares the pings keeps the invariant. -/
private theorem inv_step (hp : Pinging h v) (hs : v.Inv s) {e : Event Empty ω ρ}
    (hstep : step h m s e = some s') (hspares : v.Spares s e) : v.Inv s' := by
  cases e with
  | stop =>
    obtain rfl := Option.some.inj hstep
    rw [hp.stop]
    refine ⟨chained_put hs.chained.one ?_ nofun, hs.endpoint⟩
    intro q hq
    dsimp only
    rw [op_endBy]
    exact hs.chained.fits q hq
  | notify n => exact nomatch n
  | settle op result =>
    obtain ⟨hobject, hchained⟩ := hs.chained.settle id hstep
    refine ⟨hchained, ?_⟩
    rw [hobject]
    exact hs.endpoint
  | handle op result =>
    obtain ⟨hmem, r, hr, rfl⟩ := step_handle hstep
    exact inv_handle hs hmem (hp.outcome _ _ _ _ (hs.chained.fits _ hmem) hr) hspares

/-- A handler after which all pings and handshakes are defined has spared them. -/
private theorem spares_of_defined (hp : Pinging h v) {op : ω} {result : ρ}
    {r : σ × List ω} (hr : v.Outcome s.object op result r)
    (hdefined : Defined h v.needs
      (m.put (s.pending.erase { op := op, result := some result }) r)) :
    v.Spares s (.handle op result) := by
  constructor
  · intro hretries q hq hping
    cases hr with
    | beginsAnew hop _ htimer _ _ =>
      have hne : q ≠ { op := op, result := some result } := by
        rintro rfl
        rw [hping] at hop
        cases hop
      have hq' := List.mem_append_left (r.2.map m.start)
        (List.mem_map_of_mem (f := m.endBy r.2) ((List.mem_erase_of_ne hne).mpr hq))
      exact not_defined_of_mem hp hq' (by rw [op_endBy]; exact hping) htimer result hdefined
    | goesOn _ hfalse | stands _ hfalse | ticks _ hfalse | waits _ hfalse =>
      cases hretries.symm.trans hfalse
  · intro hwait hok
    cases hr with
    | @ticks _ _ hobject ping hping hnext =>
      rw [if_pos hok] at hnext
      have hstarted : ping ∈ r.2 := by
        rw [hnext]
        exact List.mem_singleton_self _
      by_contra htimer
      rw [← hobject] at htimer
      exact not_defined_of_mem hp (List.mem_append_right _ (List.mem_map_of_mem hstarted)) hping
        (Bool.eq_false_iff.mpr htimer) result hdefined
    | goesOn hop | beginsAnew hop =>
      rw [hwait] at hop
      cases hop
    | stands hop | waits hop => cases hwait.symm.trans hop

/-- Over every run, the handlers of all pings and handshakes are defined that can run next after
every step, if and only if the pings are spared at every step. -/
theorem along_defined_iff (hp : Pinging h v) (hs : v.Inv s) (events : List (Event Empty ω ρ)) :
    Transition.Along (step h m) (fun _ _ s' ↦ Defined h v.needs s') s events ↔
      Transition.Along (step h m) (fun s e _ ↦ v.Spares s e) s events := by
  refine Transition.along_congr_under (Θ := fun _ _ _ ↦ True) (I := v.Inv) ?_ hs
    (Transition.along_of_step fun _ _ _ _ ↦ True.intro)
  intro s e s' hs hstep _
  refine ⟨⟨?_, fun hspares ↦ hp.defined_of_inv (hp.inv_step hs hstep hspares)⟩,
    hp.inv_step hs hstep⟩
  intro hdefined
  cases e with
  | handle op result =>
    obtain ⟨hmem, r, hr, rfl⟩ := step_handle hstep
    exact hp.spares_of_defined (hp.outcome _ _ _ _ (hs.chained.fits _ hmem) hr) hdefined
  | stop | settle | notify => exact True.intro

end Pinging

end KeepMyJournal.Base.Queued
