import KeepMyJournal.Base.Bytes
import KeepMyJournal.Base.Throwing

/-!
# Network operations of the account streams

How an asynchronous operation completes, what a handler ends in that does not return, and the chain
of operations of `https_rest_api_t` (`common/src/https_rest_client.cpp:35–180`) that the Binance and
the KuCoin stream obtain their token with.
-/

namespace KeepMyJournal.AccountMonitor

open KeepMyJournal.Base

/-- The outcome of an operation. `success` carries what a read has read; `noServerName` is a
connect after which `SSL_set_tlsext_host_name` fails, and a failure elsewhere. -/
inductive Completion where
  | success (data : Bytes)
  | noServerName
  | aborted
  | failed
  deriving DecidableEq, Repr

/-- The operation succeeded. -/
def Completion.isSuccess : Completion → Bool
  | success _ => true
  | _ => false

/-- What ends a handler before it returns: a null pointer that is dereferenced, or an exception,
which leaves the thread of the `io_context` and ends the program. -/
inductive Failure where
  | nullPointer
  | exception
  deriving DecidableEq, Repr

/-- What a handler does with a pointer that may be null. -/
def orNullPointer {α : Type} : Option α → Except Failure α
  | none => .error .nullPointer
  | some a => .ok a

theorem orNullPointer_eq_ok_iff {α : Type} {x : Option α} {a : α} :
    orNullPointer x = .ok a ↔ x = some a := by
  cases x with
  | none => exact iff_of_false nofun nofun
  | some b => exact ⟨fun h ↦ congrArg _ (Except.ok.inj h), fun h ↦ congrArg _ (Option.some.inj h)⟩

/-- A handler that returns has found its pointers there. -/
theorem of_orNullPointer {α : Type} {p : Prop} [Decidable p] {a r : α}
    (h : orNullPointer (if p then some a else none) = .ok r) : p ∧ r = a := by
  obtain ⟨hp, hr⟩ := Option.ite_none_right_eq_some.mp (orNullPointer_eq_ok_iff.mp h)
  exact ⟨hp, (Option.some.inj hr).symm⟩

/-- The operations of `https_rest_api_t`. -/
inductive RestOp where
  | resolve | connect | sslHandshake | write | read
  deriving DecidableEq, Repr

/-- What a handler of `https_rest_api_t` does. -/
inductive RestStep where
  | starts (op : RestOp)
  | errorCallback
  | successCallback (data : Bytes)
  deriving DecidableEq, Repr

/-- The handlers of `https_rest_api_t`. -/
def restComplete (op : RestOp) (result : Completion) : RestStep :=
  match op, result with
  | .resolve, .success _ => .starts .connect
  | .connect, .success _ => .starts .sslHandshake
  | .sslHandshake, .success _ => .starts .write
  | .write, .success _ => .starts .read
  | .read, .success data => .successCallback data
  | _, _ => .errorCallback

end KeepMyJournal.AccountMonitor
