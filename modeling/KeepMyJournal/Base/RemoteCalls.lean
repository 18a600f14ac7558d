import KeepMyJournal.Base.Transition
import Mathlib.Data.List.Basic

/-!
# Blocking calls through a relay

Clients hand over what stands in their outboxes, one value after the other, each in a call that
they wait for. A relay serves these calls one at a time, each by a call of its own to a server.
Calls arrive in their order, but any may be lost, and whoever waits may give up and take no notice
of what becomes of its call. A client that has given up does nothing any more.
-/

namespace KeepMyJournal.Base

universe u v

/-- A client. Beside its outbox and the value of the call that it waits for stand all values that
have been put into the outbox, and those whose calls have returned. -/
structure Client (α : Type u) where
  outbox : List α := []
  calling : Option α := none
  replied : Bool := false
  failed : Bool := false
  given : List α := []
  done : List α := []
  deriving DecidableEq, Repr

/-- The clients, the calls on their way to the relay, the call that it serves, its own calls on
their way to the server, with whether it still waits for them, and what the server has served. -/
structure RemoteCalls (κ : Type v) (α : Type u) where
  client : κ → Client α := fun _ ↦ {}
  calls : List (κ × α) := []
  relaying : Option (κ × α) := none
  onward : List (Bool × κ × α) := []
  answered : Bool := false
  served : List (κ × α) := []

namespace RemoteCalls

variable {κ : Type v} {α : Type u}

/-- What can happen: a value is put into an outbox, a client calls, the relay takes up a call,
the server serves one, the relay or a client gets its reply or gives up, and a call is lost. -/
inductive Event (κ : Type v) (α : Type u) where
  | give (k : κ) (a : α)
  | call (k : κ)
  | relay
  | serve
  | relayReturns
  | relayGivesUp
  | returns (k : κ)
  | fails (k : κ)
  | loseCall (i : Nat)
  | loseOnward (i : Nat)
  deriving DecidableEq, Repr

variable [DecidableEq κ]

/-- One client changes. -/
def set (s : RemoteCalls κ α) (k : κ) (c : Client α) : RemoteCalls κ α :=
  { s with client := Function.update s.client k c }

/-- One step. -/
def step (s : RemoteCalls κ α) : Event κ α → Option (RemoteCalls κ α)
  | .give k a =>
    let c := s.client k
    if c.failed then none
    else some (s.set k { c with outbox := c.outbox ++ [a], given := c.given ++ [a] })
  | .call k =>
    let c := s.client k
    match c.failed, c.calling, c.outbox with
    | false, none, a :: outbox =>
      some { s.set k { c with outbox := outbox, calling := some a, replied := false } with
        calls := s.calls ++ [(k, a)] }
    | _, _, _ => none
  | .relay =>
    match s.relaying, s.calls with
    | none, call :: calls =>
      some { s with
        calls := calls
        relaying := some call
        onward := s.onward ++ [(true, call)]
        answered := false }
    | _, _ => none
  | .serve =>
    match s.onward with
    | (awaited, call) :: onward =>
      some { s with
        onward := onward
        answered := s.answered || awaited
        served := s.served ++ [call] }
    | [] => none
  | .relayReturns =>
    match s.relaying, s.answered with
    | some (k, _), true =>
      some { s.set k { s.client k with replied := true } with relaying := none, answered := false }
    | _, _ => none
  | .relayGivesUp =>
    match s.relaying with
    | some _ =>
      some { s with
        relaying := none
        onward := s.onward.map fun call ↦ (false, call.2)
        answered := false }
    | none => none
  | .returns k =>
    let c := s.client k
    match c.failed, c.calling, c.replied with
    | false, some a, true =>
      some (s.set k { c with calling := none, replied := false, done := c.done ++ [a] })
    | _, _, _ => none
  | .fails k =>
    let c := s.client k
    if c.calling.isSome then some (s.set k { c with failed := true }) else none
  | .loseCall i => some { s with calls := s.calls.eraseIdx i }
  | .loseOnward i => some { s with onward := s.onward.eraseIdx i }

/-- The values of one client among those of all. -/
def own (k : κ) (calls : List (κ × α)) : List α :=
  (calls.filter fun call ↦ call.1 == k).map Prod.snd

@[simp] theorem own_nil (k : κ) : own k ([] : List (κ × α)) = [] := rfl

@[simp] theorem own_append (k : κ) (calls more : List (κ × α)) :
    own k (calls ++ more) = own k calls ++ own k more := by
  simp [own]

@[simp] theorem own_cons_self (k : κ) (a : α) (calls : List (κ × α)) :
    own k ((k, a) :: calls) = a :: own k calls := by
  simp [own]

theorem own_cons_of_ne {k k' : κ} (h : k' ≠ k) (a : α) (calls : List (κ × α)) :
    own k ((k', a) :: calls) = own k calls := by
  simp [own, h]

theorem own_sublist {k : κ} {calls calls' : List (κ × α)} (h : calls.Sublist calls') :
    (own k calls).Sublist (own k calls') :=
  (h.filter _).map _

theorem mem_own {k : κ} {a : α} {calls : List (κ × α)} : a ∈ own k calls ↔ (k, a) ∈ calls := by
  simp [own]

/-- What is part of at most one value is that value alone. -/
theorem eq_of_sublist_toList {o : Option α} {a : α} {l m : List α}
    (h : (l ++ a :: m).Sublist o.toList) : o = some a ∧ l = [] ∧ m = [] := by
  cases o with
  | none => simp at h
  | some b =>
    have hlength := h.length_le
    simp only [List.length_append, List.length_cons, Option.toList_some, List.length_nil]
      at hlength
    obtain rfl : l = [] := List.eq_nil_of_length_eq_zero (by omega)
    obtain rfl : m = [] := List.eq_nil_of_length_eq_zero (by omega)
    have hmem : a = b := by simpa using h
    exact ⟨congrArg some hmem.symm, rfl, rfl⟩

/-! ### One client -/

/-- What holds of a client. What has been served of it are the values whose calls have returned,
and perhaps the one that it waits for; no more than that one is on its way. -/
structure Orderly (s : RemoteCalls κ α) (k : κ) : Prop where
  given : (s.client k).given =
    (s.client k).done ++ (s.client k).calling.toList ++ (s.client k).outbox
  path : ∃ last, own k s.served = (s.client k).done ++ last ∧
    (last ++ own k (s.onward.map Prod.snd) ++ own k s.calls).Sublist (s.client k).calling.toList
  replied : (s.client k).replied = true →
    ∃ a, (s.client k).calling = some a ∧ own k s.served = (s.client k).done ++ [a]
  relaying : ∀ a, s.relaying = some (k, a) →
    (s.client k).calling = some a ∧ (s.client k).replied = false
  answered : ∀ a, s.relaying = some (k, a) → s.answered = true →
    own k s.served = (s.client k).done ++ [a]

/-- Every client is orderly, and the relay waits for no other call than its own. -/
structure Inv (s : RemoteCalls κ α) : Prop where
  orderly : ∀ k, s.Orderly k
  awaited : ∀ call, (true, call) ∈ s.onward → s.relaying = some call

variable {s s' : RemoteCalls κ α} {k : κ}

/-- What has been served of a client, and what it has handed over. -/
theorem Orderly.served (hs : s.Orderly k) :
    own k s.served = (s.client k).done ∨
      own k s.served = (s.client k).done ++ (s.client k).calling.toList := by
  obtain ⟨last, hserved, hsub⟩ := hs.path
  have hlast : last.Sublist (s.client k).calling.toList :=
    ((List.sublist_append_left last _).trans (List.sublist_append_left _ _)).trans hsub
  rw [hserved]
  cases hcalling : (s.client k).calling with
  | none =>
    rw [hcalling] at hlast
    exact .inl (by simp [List.sublist_nil.mp hlast])
  | some a =>
    rw [hcalling] at hlast
    rcases List.sublist_singleton.mp hlast with rfl | rfl
    · exact .inl (List.append_nil _)
    · exact .inr rfl

/-- Once the call that a client waits for has been served, none of its calls is on its way. -/
theorem Orderly.nothing_on_its_way (hs : s.Orderly k) {a : α}
    (hcalling : (s.client k).calling = some a)
    (hserved : own k s.served = (s.client k).done ++ [a]) :
    own k (s.onward.map Prod.snd) = [] ∧ own k s.calls = [] := by
  obtain ⟨last, hlast, hsub⟩ := hs.path
  obtain rfl := List.append_cancel_left (hlast.symm.trans hserved)
  rw [hcalling] at hsub
  have hlength := hsub.length_le
  simp only [List.length_append, List.length_singleton, Option.toList_some] at hlength
  constructor
  · exact List.eq_nil_of_length_eq_zero (by omega)
  · exact List.eq_nil_of_length_eq_zero (by omega)

/-! ### Steps -/

@[simp] theorem set_client_self (s : RemoteCalls κ α) (k : κ) (c : Client α) :
    (s.set k c).client k = c := Function.update_self _ _ _

theorem set_client_of_ne (s : RemoteCalls κ α) {k k' : κ} (h : k' ≠ k) (c : Client α) :
    (s.set k c).client k' = s.client k' := Function.update_of_ne h _ _

/-- What each step does, and when. -/
inductive Stepped (s : RemoteCalls κ α) : Event κ α → RemoteCalls κ α → Prop where
  | give {k : κ} {a : α} (hlive : (s.client k).failed = false) :
      Stepped s (.give k a) (s.set k { s.client k with
        outbox := (s.client k).outbox ++ [a]
        given := (s.client k).given ++ [a] })
  | call {k : κ} {a : α} {outbox : List α} (hlive : (s.client k).failed = false)
      (hcalling : (s.client k).calling = none) (houtbox : (s.client k).outbox = a :: outbox) :
      Stepped s (.call k) { s.set k { s.client k with
          outbox := outbox, calling := some a, replied := false } with
        calls := s.calls ++ [(k, a)] }
  | relay {k : κ} {a : α} {calls : List (κ × α)} (hrelaying : s.relaying = none)
      (hcalls : s.calls = (k, a) :: calls) :
      Stepped s .relay { s with
        calls := calls
        relaying := some (k, a)
        onward := s.onward ++ [(true, k, a)]
        answered := false }
  | serve {awaited : Bool} {k : κ} {a : α} {onward : List (Bool × κ × α)}
      (honward : s.onward = (awaited, k, a) :: onward) :
      Stepped s .serve { s with
        onward := onward
        answered := s.answered || awaited
        served := s.served ++ [(k, a)] }
  | relayReturns {k : κ} {a : α} (hrelaying : s.relaying = some (k, a))
      (hanswered : s.answered = true) :
      Stepped s .relayReturns { s.set k { s.client k with replied := true } with
        relaying := none, answered := false }
  | relayGivesUp {call : κ × α} (hrelaying : s.relaying = some call) :
      Stepped s .relayGivesUp { s with
        relaying := none
        onward := s.onward.map fun call ↦ (false, call.2)
        answered := false }
  | returns {k : κ} {a : α} (hlive : (s.client k).failed = false)
      (hcalling : (s.client k).calling = some a) (hreplied : (s.client k).replied = true) :
      Stepped s (.returns k) (s.set k { s.client k with
        calling := none, replied := false, done := (s.client k).done ++ [a] })
  | fails {k : κ} (hcalling : (s.client k).calling.isSome = true) :
      Stepped s (.fails k) (s.set k { s.client k with failed := true })
  | loseCall {i : Nat} : Stepped s (.loseCall i) { s with calls := s.calls.eraseIdx i }
  | loseOnward {i : Nat} : Stepped s (.loseOnward i) { s with onward := s.onward.eraseIdx i }

theorem step_cases {e : Event κ α} (hstep : s.step e = some s') : s.Stepped e s' := by
  unfold step at hstep
  cases e with
  | give k a =>
    dsimp only at hstep
    split at hstep
    · cases hstep
    · next hlive =>
      obtain rfl := Option.some.inj hstep
      exact .give (Bool.eq_false_iff.mpr hlive)
  | call k =>
    dsimp only at hstep
    split at hstep
    · next a outbox hlive hcalling houtbox =>
      obtain rfl := Option.some.inj hstep
      exact .call hlive hcalling houtbox
    · cases hstep
  | relay =>
    dsimp only at hstep
    split at hstep
    · next call calls hrelaying hcalls =>
      obtain rfl := Option.some.inj hstep
      exact .relay hrelaying hcalls
    · cases hstep
  | serve =>
    dsimp only at hstep
    split at hstep
    · next awaited call onward honward =>
      obtain rfl := Option.some.inj hstep
      exact .serve honward
    · cases hstep
  | relayReturns =>
    dsimp only at hstep
    split at hstep
    · next k a hrelaying hanswered =>
      obtain rfl := Option.some.inj hstep
      exact .relayReturns hrelaying hanswered
    · cases hstep
  | relayGivesUp =>
    dsimp only at hstep
    split at hstep
    · next call hrelaying =>
      obtain rfl := Option.some.inj hstep
      exact .relayGivesUp hrelaying
    · cases hstep
  | returns k =>
    dsimp only at hstep
    split at hstep
    · next a hlive hcalling hreplied =>
      obtain rfl := Option.some.inj hstep
      exact .returns hlive hcalling hreplied
    · cases hstep
  | fails k =>
    dsimp only at hstep
    split at hstep
    · next hcalling =>
      obtain rfl := Option.some.inj hstep
      exact .fails hcalling
    · cases hstep
  | loseCall i =>
    obtain rfl := Option.some.inj hstep
    exact .loseCall
  | loseOnward i =>
    obtain rfl := Option.some.inj hstep
    exact .loseOnward

/-! ### What a step keeps -/

/-- What concerns another client only leaves a client orderly. -/
private theorem Orderly.of_same (hs : s.Orderly k) (hclient : s'.client k = s.client k)
    (hserved : own k s'.served = own k s.served)
    (hway : (own k (s'.onward.map Prod.snd) ++ own k s'.calls).Sublist
      (own k (s.onward.map Prod.snd) ++ own k s.calls))
    (hrelaying : ∀ a, s'.relaying = some (k, a) →
      s.relaying = some (k, a) ∧ (s'.answered = true → s.answered = true)) : s'.Orderly k := by
  constructor
  · rw [hclient]
    exact hs.given
  · obtain ⟨last, hlast, hsub⟩ := hs.path
    rw [hclient, hserved]
    refine ⟨last, hlast, List.Sublist.trans ?_ hsub⟩
    rw [List.append_assoc, List.append_assoc]
    exact hway.append_left last
  · rw [hclient, hserved]
    exact hs.replied
  · rw [hclient]
    exact fun a h ↦ hs.relaying a (hrelaying a h).1
  · rw [hclient, hserved]
    exact fun a h hanswered ↦ hs.answered a (hrelaying a h).1 ((hrelaying a h).2 hanswered)

/-- Where one client changes, only that one can get out of order. -/
private theorem Inv.set {c : Client α} (hs : s.Inv) (h : (s.set k c).Orderly k) :
    (s.set k c).Inv := by
  refine ⟨fun k' ↦ ?_, hs.awaited⟩
  by_cases hk : k' = k
  · exact hk ▸ h
  · exact (hs.orderly k').of_same (set_client_of_ne s hk c) rfl (List.Sublist.refl _)
      fun _ hrelaying ↦ ⟨hrelaying, id⟩

/-- A client stays in order while its calls stay as they are. -/
private theorem Orderly.set_of_same {c : Client α} (hs : s.Orderly k)
    (hgiven : c.given = c.done ++ c.calling.toList ++ c.outbox)
    (hcalling : c.calling = (s.client k).calling) (hreplied : c.replied = (s.client k).replied)
    (hdone : c.done = (s.client k).done) : (s.set k c).Orderly k := by
  constructor
  all_goals rw [set_client_self]
  · exact hgiven
  · rw [hdone, hcalling]
    exact hs.path
  · rw [hdone, hcalling, hreplied]
    exact hs.replied
  · rw [hcalling, hreplied]
    exact hs.relaying
  · rw [hdone]
    exact hs.answered

/-- The relay serves no client that waits for nothing or has its reply. -/
private theorem Orderly.not_relaying (hs : s.Orderly k)
    (h : (s.client k).calling = none ∨ (s.client k).replied = true) (a : α) :
    s.relaying ≠ some (k, a) := by
  intro hrelaying
  obtain ⟨hcalling, hreplied⟩ := hs.relaying a hrelaying
  rcases h with h | h
  · rw [h] at hcalling
    cases hcalling
  · rw [h] at hreplied
    cases hreplied

private theorem inv_call (hs : s.Inv) {a : α} {outbox : List α}
    (hcalling : (s.client k).calling = none) (houtbox : (s.client k).outbox = a :: outbox) :
    Inv { s.set k { s.client k with outbox := outbox, calling := some a, replied := false } with
      calls := s.calls ++ [(k, a)] } := by
  refine ⟨fun k' ↦ ?_, hs.awaited⟩
  by_cases hk : k' = k
  · subst hk
    have hk := hs.orderly k'
    have hidle := hk.not_relaying (.inl hcalling)
    obtain ⟨last, hlast, hsub⟩ := hk.path
    rw [hcalling, Option.toList_none, List.sublist_nil, List.append_eq_nil_iff,
      List.append_eq_nil_iff] at hsub
    obtain ⟨⟨rfl, honward⟩, hcalls⟩ := hsub
    constructor
    all_goals dsimp only
    all_goals rw [set_client_self]
    · dsimp only
      rw [hk.given, hcalling, houtbox]
      simp
    · refine ⟨[], hlast, ?_⟩
      rw [own_append, hcalls]
      change (own k' (s.onward.map Prod.snd) ++ _).Sublist _
      rw [honward, own_cons_self, own_nil]
      exact List.Sublist.refl _
    · exact fun h ↦ by cases h
    · exact fun a h ↦ absurd h (hidle a)
    · exact fun a h ↦ absurd h (hidle a)
  · refine (hs.orderly k').of_same (set_client_of_ne s hk _) rfl ?_ fun _ h ↦ ⟨h, id⟩
    dsimp only
    rw [own_append, own_cons_of_ne (Ne.symm hk), own_nil, List.append_nil]
    exact List.Sublist.refl _

private theorem inv_relay (hs : s.Inv) {a : α} {calls : List (κ × α)}
    (hrelaying : s.relaying = none) (hcalls : s.calls = (k, a) :: calls) :
    Inv { s with
      calls := calls
      relaying := some (k, a)
      onward := s.onward ++ [(true, k, a)]
      answered := false } := by
  constructor
  · intro k'
    by_cases hk : k' = k
    · subst hk
      have hk := hs.orderly k'
      obtain ⟨last, hlast, hsub⟩ := hk.path
      rw [hcalls, own_cons_self] at hsub
      obtain ⟨hcalling, hnone, -⟩ := eq_of_sublist_toList hsub
      obtain ⟨rfl, -⟩ := List.append_eq_nil_iff.mp hnone
      refine ⟨hk.given, ⟨[], hlast, ?_⟩, hk.replied, ?_, ?_⟩
      · simpa using hsub
      · intro a' ha'
        obtain ⟨-, rfl⟩ := Prod.mk.inj (Option.some.inj ha')
        refine ⟨hcalling, Bool.eq_false_iff.mpr fun hreplied ↦ ?_⟩
        obtain ⟨a', -, hserved⟩ := hk.replied hreplied
        simp [hserved] at hlast
      · exact fun a' _ hanswered ↦ by cases hanswered
    · refine (hs.orderly k').of_same rfl rfl ?_ fun a' ha' ↦ ?_
      · rw [hcalls, own_cons_of_ne (Ne.symm hk)]
        simp [own_cons_of_ne (Ne.symm hk)]
      · exact absurd (Prod.mk.inj (Option.some.inj ha')).1.symm hk
  · intro call hcall
    rcases List.mem_append.mp hcall with hcall | hcall
    · rw [hs.awaited call hcall] at hrelaying
      cases hrelaying
    · rw [(Prod.mk.inj (List.mem_singleton.mp hcall)).2]

private theorem inv_serve (hs : s.Inv) {awaited : Bool} {a : α} {onward : List (Bool × κ × α)}
    (honward : s.onward = (awaited, k, a) :: onward) :
    Inv { s with
      onward := onward
      answered := s.answered || awaited
      served := s.served ++ [(k, a)] } := by
  constructor
  · intro k'
    by_cases hk : k' = k
    · subst hk
      have hk := hs.orderly k'
      obtain ⟨last, hlast, hsub⟩ := hk.path
      rw [honward, List.map_cons, own_cons_self, List.append_assoc] at hsub
      obtain ⟨hcalling, rfl, -⟩ := eq_of_sublist_toList hsub
      have hserved : own k' (s.served ++ [(k', a)]) = (s.client k').done ++ [a] := by
        simp [hlast]
      refine ⟨hk.given, ⟨[a], hserved, ?_⟩, fun _ ↦ ⟨a, hcalling, hserved⟩, hk.relaying, ?_⟩
      · simpa using hsub
      · intro a' ha' _
        obtain rfl := Option.some.inj (hcalling.symm.trans (hk.relaying a' ha').1)
        exact hserved
    · refine (hs.orderly k').of_same rfl ?_ ?_ fun a' ha' ↦ ⟨ha', fun hanswered ↦ ?_⟩
      · simp [own_cons_of_ne (Ne.symm hk)]
      · rw [honward, List.map_cons, own_cons_of_ne (Ne.symm hk)]
      · rcases Bool.or_eq_true_iff.mp hanswered with hanswered | rfl
        · exact hanswered
        · have hself := hs.awaited (k, a) (honward ▸ List.mem_cons_self)
          exact absurd (Prod.mk.inj (Option.some.inj (ha'.symm.trans hself))).1 hk
  · exact fun call hcall ↦ hs.awaited call (honward ▸ List.mem_cons_of_mem _ hcall)

private theorem inv_relayReturns (hs : s.Inv) {a : α} (hrelaying : s.relaying = some (k, a))
    (hanswered : s.answered = true) :
    Inv { s.set k { s.client k with replied := true } with
      relaying := none, answered := false } := by
  have hcalling := ((hs.orderly k).relaying a hrelaying).1
  have hserved := (hs.orderly k).answered a hrelaying hanswered
  constructor
  · intro k'
    by_cases hk : k' = k
    · subst hk
      have hk := hs.orderly k'
      constructor
      all_goals dsimp only
      all_goals rw [set_client_self]
      · exact hk.given
      · exact hk.path
      · exact fun _ ↦ ⟨a, hcalling, hserved⟩
      · exact fun _ h ↦ by cases h
      · exact fun _ h ↦ by cases h
    · refine (hs.orderly k').of_same (set_client_of_ne s hk _) rfl (List.Sublist.refl _) ?_
      exact fun _ h ↦ by cases h
  · intro call hcall
    obtain rfl := Option.some.inj (hrelaying.symm.trans (hs.awaited call hcall))
    have hmem : a ∈ own k (s.onward.map Prod.snd) := mem_own.mpr (List.mem_map_of_mem hcall)
    rw [((hs.orderly k).nothing_on_its_way hcalling hserved).1] at hmem
    cases hmem

private theorem Orderly.returns (hs : s.Orderly k) {a : α}
    (hcalling : (s.client k).calling = some a) (hreplied : (s.client k).replied = true) :
    (s.set k { s.client k with
      calling := none, replied := false, done := (s.client k).done ++ [a] }).Orderly k := by
  obtain ⟨a', ha', hserved⟩ := hs.replied hreplied
  obtain rfl := Option.some.inj (hcalling.symm.trans ha')
  obtain ⟨honward, hcalls⟩ := hs.nothing_on_its_way hcalling hserved
  have hidle := hs.not_relaying (.inr hreplied)
  constructor
  all_goals rw [set_client_self]
  · dsimp only
    rw [hs.given, hcalling]
    simp
  · refine ⟨[], hserved.trans (List.append_nil _).symm, ?_⟩
    change (own k (s.onward.map Prod.snd) ++ own k s.calls).Sublist _
    rw [honward, hcalls]
    exact List.Sublist.refl _
  · exact fun h ↦ by cases h
  · exact fun a h ↦ absurd h (hidle a)
  · exact fun a h ↦ absurd h (hidle a)

private theorem inv_step {e : Event κ α} (hs : s.Inv) (hstep : s.step e = some s') : s'.Inv := by
  cases step_cases hstep with
  | @give k a hlive =>
    refine hs.set ((hs.orderly k).set_of_same ?_ rfl rfl rfl)
    dsimp only
    rw [(hs.orderly k).given, List.append_assoc]
  | call hlive hcalling houtbox => exact inv_call hs hcalling houtbox
  | relay hrelaying hcalls => exact inv_relay hs hrelaying hcalls
  | serve honward => exact inv_serve hs honward
  | relayReturns hrelaying hanswered => exact inv_relayReturns hs hrelaying hanswered
  | relayGivesUp hrelaying =>
    refine ⟨fun k ↦ (hs.orderly k).of_same rfl rfl ?_ fun _ h ↦ ?_, fun call h ↦ ?_⟩
    · rw [List.map_map]
      exact List.Sublist.refl _
    · cases h
    · obtain ⟨_, -, heq⟩ := List.mem_map.mp h
      cases (Prod.mk.inj heq).1
  | @returns k _ hlive hcalling hreplied =>
    exact hs.set ((hs.orderly k).returns hcalling hreplied)
  | @fails k hcalling =>
    exact hs.set ((hs.orderly k).set_of_same (hs.orderly k).given rfl rfl rfl)
  | loseCall =>
    refine ⟨fun k ↦ (hs.orderly k).of_same rfl rfl ?_ fun _ h ↦ ⟨h, id⟩, hs.awaited⟩
    exact (own_sublist (List.eraseIdx_sublist _ _)).append_left _
  | @loseOnward i =>
    have hsub : (s.onward.eraseIdx i).Sublist s.onward := List.eraseIdx_sublist _ _
    refine ⟨fun k ↦ (hs.orderly k).of_same rfl rfl ?_ fun _ h ↦ ⟨h, id⟩, fun call h ↦ ?_⟩
    · exact (own_sublist (hsub.map _)).append_right _
    · exact hs.awaited call (hsub.subset h)

/-- What an event puts into the outbox of a client. -/
def Event.givenTo (k : κ) : Event κ α → List α
  | .give k' a => if k' = k then [a] else []
  | _ => []

/-- Only what is put into its outbox is given to a client. -/
theorem given_step {e : Event κ α} (hstep : s.step e = some s') (k : κ) :
    (s'.client k).given = (s.client k).given ++ e.givenTo k := by
  have hset : ∀ (k' : κ) (c : Client α), c.given = (s.client k').given →
      ((s.set k' c).client k).given = (s.client k).given := by
    intro k' c hc
    by_cases hk : k = k'
    · subst hk
      rw [set_client_self, hc]
    · rw [set_client_of_ne s hk]
  cases step_cases hstep with
  | @give k' a hlive =>
    by_cases hk : k = k'
    · subst hk
      rw [set_client_self, Event.givenTo, if_pos rfl]
    · rw [set_client_of_ne s hk, Event.givenTo, if_neg (Ne.symm hk), List.append_nil]
  | call | relayReturns | returns | fails =>
    refine (hset _ _ ?_).trans (List.append_nil _).symm
    rfl
  | relay | serve | relayGivesUp | loseCall | loseOnward => exact (List.append_nil _).symm

/-- The server serves the first call on its way. -/
theorem served_serve (hstep : s.step .serve = some s') : ∃ awaited call onward,
    s.onward = (awaited, call) :: onward ∧ s'.served = s.served ++ [call] := by
  cases step_cases hstep with
  | serve honward => exact ⟨_, _, _, honward, rfl⟩

theorem served_step_of_ne {e : Event κ α} (he : e ≠ .serve) (hstep : s.step e = some s') :
    s'.served = s.served := by
  cases step_cases hstep with
  | serve => exact absurd rfl he
  | _ => rfl

/-- In every run, for every client: its outbox holds what is behind the values that it has handed
over; and served of it have been the values whose calls have returned, in their order and each
once, and perhaps the one that it waits for. -/
theorem orderly_run {events : List (Event κ α)}
    (hrun : Transition.run step ({} : RemoteCalls κ α) events = some s) (k : κ) : s.Orderly k := by
  have hinv : s.Inv := by
    refine Transition.inv_run (fun s e s' ↦ inv_step) ?_ hrun
    constructor
    · intro k
      exact ⟨rfl, ⟨[], rfl, List.Sublist.refl _⟩, by simp, by simp, by simp⟩
    · simp
  exact hinv.orderly k

end RemoteCalls

end KeepMyJournal.Base
