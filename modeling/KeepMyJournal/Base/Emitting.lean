import KeepMyJournal.Base.Throwing

/-!
# Computations that emit

A computation that reads items and adds what it reads of each to its state, until it meets an
item that cannot be read: what it has added before stays, and it throws. Such computations are
described by the list of their items, each with the value or the error that it is read as.
-/

namespace KeepMyJournal.Base

universe u

variable {ε σ α β : Type u}

/-! ### Items -/

/-- The values of the items before the first that cannot be read. -/
def firstOks : List (Except ε α) → List α
  | .ok a :: items => a :: firstOks items
  | .error _ :: _ => []
  | [] => []

/-- The error of the first item that cannot be read, if there is one. -/
def firstError : List (Except ε α) → Except ε PUnit.{u + 1}
  | .ok _ :: items => firstError items
  | .error e :: _ => .error e
  | [] => .ok ⟨⟩

/-- Items that stand behind something that is read first. -/
def behind (y : Except ε β) (items : β → List (Except ε α)) : List (Except ε α) :=
  match y with
  | .ok b => items b
  | .error e => [.error e]

/-- An item that is read in two steps. -/
theorem behind_singleton (y : Except ε β) (f : β → Except ε α) :
    behind y (fun b ↦ [f b]) = [y >>= f] := by
  cases y <;> rfl

theorem behind_bind {γ : Type u} (y : Except ε β) (f : β → Except ε γ)
    (items : γ → List (Except ε α)) :
    behind (y >>= f) items = behind y fun b ↦ behind (f b) items := by
  cases y <;> rfl

theorem firstError_append_of_ok {items more : List (Except ε α)} (h : firstError items = .ok ⟨⟩) :
    firstError (items ++ more) = firstError more := by
  induction items with
  | nil => rfl
  | cons item items ih =>
    cases item with
    | ok a => exact ih h
    | error e => cases h

theorem firstError_append_of_error {items more : List (Except ε α)} {e : ε}
    (h : firstError items = .error e) : firstError (items ++ more) = .error e := by
  induction items with
  | nil => cases h
  | cons item items ih =>
    cases item with
    | ok a => exact ih h
    | error e' => exact h

theorem firstOks_append_of_ok {items more : List (Except ε α)} (h : firstError items = .ok ⟨⟩) :
    firstOks (items ++ more) = firstOks items ++ firstOks more := by
  induction items with
  | nil => rfl
  | cons item items ih =>
    cases item with
    | ok a => exact congrArg (List.cons a) (ih h)
    | error e => cases h

theorem firstOks_append_of_error {items more : List (Except ε α)} {e : ε}
    (h : firstError items = .error e) : firstOks (items ++ more) = firstOks items := by
  induction items with
  | nil => cases h
  | cons item items ih =>
    cases item with
    | ok a => exact congrArg (List.cons a) (ih h)
    | error e' => rfl

/-! ### Emitting -/

/-- The computation adds the values of the items up to the first that cannot be read, and throws
its error. -/
def Emits (add : σ → α → σ) (x : Throwing ε σ PUnit) (items : List (Except ε α)) : Prop :=
  ∀ s, x s = (firstError items, (firstOks items).foldl add s)

variable {add : σ → α → σ} {x y : Throwing ε σ PUnit} {items more : List (Except ε α)}

theorem emits_pure : Emits add (pure ⟨⟩ : Throwing ε σ PUnit) [] := fun _ ↦ rfl

/-- One value is added. -/
theorem emits_modify (a : α) : Emits add (modify fun s ↦ add s a : Throwing ε σ PUnit) [.ok a] :=
  fun _ ↦ rfl

/-- A computation after another one adds its items behind those of the other. -/
theorem Emits.seq (hx : Emits add x items) (hy : Emits add y more) :
    Emits add (x >>= fun _ ↦ y) (items ++ more) := by
  intro s
  cases herror : firstError items with
  | ok _ =>
    rw [Throwing.bind_ok ((hx s).trans (congrArg (fun r ↦ (r, _)) herror)), hy,
      firstError_append_of_ok herror, firstOks_append_of_ok herror, List.foldl_append]
  | error e =>
    rw [Throwing.bind_error ((hx s).trans (congrArg (fun r ↦ (r, _)) herror)),
      firstError_append_of_error herror, firstOks_append_of_error herror]

/-- What is read first does not touch the state. -/
theorem Emits.lift_bind {r : Except ε β} {f : β → Throwing ε σ PUnit}
    {items : β → List (Except ε α)} (h : ∀ b, Emits add (f b) (items b)) :
    Emits add (liftM r >>= f) (behind r items) := by
  intro s
  cases r with
  | ok b =>
    rw [Throwing.lift_bind_ok rfl]
    exact h b s
  | error e =>
    rw [Throwing.lift_bind_error rfl]
    rfl

/-- A loop adds the items of its passes, one pass after the other. -/
theorem emits_forM {f : β → Throwing ε σ PUnit} {items : β → List (Except ε α)}
    (h : ∀ b, Emits add (f b) (items b)) (l : List β) : Emits add (l.forM f) (l.flatMap items) := by
  induction l with
  | nil => exact emits_pure
  | cons b l ih => exact (h b).seq ih

/-- A loop in whose passes one item is read each. -/
theorem emits_forM_map {f : β → Throwing ε σ PUnit} {item : β → Except ε α}
    (h : ∀ b, Emits add (f b) [item b]) (l : List β) : Emits add (l.forM f) (l.map item) := by
  rw [List.map_eq_flatMap]
  exact emits_forM h l

/-- A handler that swallows the error keeps what has been added. -/
theorem Emits.tryCatch (hx : Emits add x items) (s : σ) :
    (tryCatch x fun _ ↦ pure ⟨⟩ : Throwing ε σ PUnit) s =
      (.ok ⟨⟩, (firstOks items).foldl add s) := by
  cases herror : firstError items with
  | ok _ => exact Throwing.tryCatch_ok ((hx s).trans (congrArg (fun r ↦ (r, _)) herror))
  | error e => exact Throwing.tryCatch_error ((hx s).trans (congrArg (fun r ↦ (r, _)) herror))

/-- What is added to a list stands behind it. -/
theorem foldl_concat (l m : List α) : m.foldl (fun s a ↦ s ++ [a]) l = l ++ m := by
  induction m generalizing l with
  | nil => exact (List.append_nil l).symm
  | cons a m ih => rw [List.foldl_cons, ih, List.append_assoc, List.singleton_append]

end KeepMyJournal.Base
