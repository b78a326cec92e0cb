import Mathlib.Logic.Function.Basic
import Apteryx.Guid

/-!
# Apteryx.Callback — callback records and the registry they live in

The state `config.c` works on: six callback trees (`watch_list` …
`proxy_list`), the `guid_to_callback` table, and the reference-counted
`cb_info_t` records both point into. The trees and the record primitives live
in `callbacks.c`, which is not part of these sources; they are modelled here by
the reference contract `config.c` relies on:

* `cb_create` returns an active record linked into its tree and holding two
  references, the tree's and the caller's;
* `cb_take` adds a reference, `cb_release` drops one and does nothing on
  `NULL`;
* `cb_disable` deactivates the record and unlinks it, and nothing more.

Records sit in a heap indexed by address and are never reused. A record whose
count reached zero has been freed: any primitive applied to it, or to an
address that was never allocated, is a `useAfterFree` fault, so a run without
faults is a run without double releases.
-/

namespace Apteryx

/-- The six callback trees of `config.c`. -/
inductive CallbackList
  | watch | validation | refresh | provide | index | proxy
  deriving DecidableEq, Repr

/-- The fields of `cb_info_t` that `config.c` creates, reads or writes. -/
structure CbInfo where
  /-- Set by `cb_create`, cleared by `cb_disable`; a record is linked into its
  tree exactly while it is active. -/
  active : Bool
  /-- The tree `cb_create` linked the record into. -/
  list : CallbackList
  guid : String
  /-- The registered pattern. -/
  path : String
  uri : Option String
  id : UInt64
  ref : UInt64
  refcnt : Nat
  deriving DecidableEq, Repr

/-- How a run of the registry code can go wrong. -/
inductive Fault
  /-- A `cb_info_t *` that is `NULL` was dereferenced. -/
  | nullDeref
  /-- A record was touched after its last reference was dropped. -/
  | useAfterFree
  deriving DecidableEq, Repr

/-- The registry: the record heap indexed by address, the next fresh address,
and `guid_to_callback`. -/
structure Registry where
  heap : Nat → Option CbInfo
  next : Nat
  guidToCallback : String → Option Nat

@[simp] theorem error_bind {ε α β : Type} (e : ε) (f : α → Except ε β) :
    (Except.error e >>= f) = Except.error e := rfl

theorem ok_eq_pure {ε α : Type} (a : α) : (Except.ok a : Except ε α) = pure a := rfl

namespace Registry

/-- The registry before `config_init`: no record, an empty table. -/
def empty : Registry := ⟨fun _ => none, 0, fun _ => none⟩

/-- Read a live record. -/
def deref (s : Registry) (a : Nat) : Except Fault CbInfo :=
  match s.heap a with
  | some r => if r.refcnt = 0 then .error .useAfterFree else .ok r
  | none => .error .useAfterFree

/-- Store a record at an address. -/
def store (s : Registry) (a : Nat) (r : CbInfo) : Registry :=
  { s with heap := Function.update s.heap a (some r) }

/-- Place a record at the next fresh address. -/
def alloc (s : Registry) (r : CbInfo) : Registry :=
  { s with heap := Function.update s.heap s.next (some r), next := s.next + 1 }

/-- `g_hash_table_remove (guid_to_callback, guid)`. -/
def tableRemove (s : Registry) (guid : String) : Registry :=
  { s with guidToCallback := Function.update s.guidToCallback guid none }

/-- `g_hash_table_replace (guid_to_callback, guid, cb)`. -/
def tableReplace (s : Registry) (guid : String) (a : Nat) : Registry :=
  { s with guidToCallback := Function.update s.guidToCallback guid (some a) }

@[simp] theorem store_heap (s : Registry) (a : Nat) (r : CbInfo) :
    (s.store a r).heap = Function.update s.heap a (some r) := rfl
@[simp] theorem store_next (s : Registry) (a : Nat) (r : CbInfo) :
    (s.store a r).next = s.next := rfl
@[simp] theorem store_guidToCallback (s : Registry) (a : Nat) (r : CbInfo) :
    (s.store a r).guidToCallback = s.guidToCallback := rfl
@[simp] theorem alloc_heap (s : Registry) (r : CbInfo) :
    (s.alloc r).heap = Function.update s.heap s.next (some r) := rfl
@[simp] theorem alloc_next (s : Registry) (r : CbInfo) : (s.alloc r).next = s.next + 1 := rfl
@[simp] theorem alloc_guidToCallback (s : Registry) (r : CbInfo) :
    (s.alloc r).guidToCallback = s.guidToCallback := rfl
@[simp] theorem tableRemove_heap (s : Registry) (g : String) :
    (s.tableRemove g).heap = s.heap := rfl
@[simp] theorem tableRemove_next (s : Registry) (g : String) :
    (s.tableRemove g).next = s.next := rfl
@[simp] theorem tableRemove_guidToCallback (s : Registry) (g : String) :
    (s.tableRemove g).guidToCallback = Function.update s.guidToCallback g none := rfl
@[simp] theorem tableReplace_heap (s : Registry) (g : String) (a : Nat) :
    (s.tableReplace g a).heap = s.heap := rfl
@[simp] theorem tableReplace_next (s : Registry) (g : String) (a : Nat) :
    (s.tableReplace g a).next = s.next := rfl
@[simp] theorem tableReplace_guidToCallback (s : Registry) (g : String) (a : Nat) :
    (s.tableReplace g a).guidToCallback = Function.update s.guidToCallback g (some a) := rfl

@[simp] theorem store_store (s : Registry) (a : Nat) (r r' : CbInfo) :
    (s.store a r).store a r' = s.store a r' := by
  simp [store]

@[simp] theorem alloc_store_next (s : Registry) (r r' : CbInfo) {a : Nat} (h : a = s.next) :
    (s.alloc r).store a r' = s.alloc r' := by
  subst h; simp [store, alloc]

@[simp] theorem tableRemove_store (s : Registry) (g : String) (a : Nat) (r : CbInfo) :
    (s.tableRemove g).store a r = (s.store a r).tableRemove g := rfl

@[simp] theorem tableReplace_store (s : Registry) (g : String) (a b : Nat) (r : CbInfo) :
    (s.tableReplace g b).store a r = (s.store a r).tableReplace g b := rfl

@[simp] theorem deref_store_self (s : Registry) (a : Nat) (r : CbInfo) :
    (s.store a r).deref a = if r.refcnt = 0 then .error .useAfterFree else .ok r := by
  simp [deref]

@[simp] theorem deref_alloc_next (s : Registry) (r : CbInfo) {a : Nat} (h : a = s.next) :
    (s.alloc r).deref a = if r.refcnt = 0 then .error .useAfterFree else .ok r := by
  subst h; simp [deref]

@[simp] theorem deref_tableRemove (s : Registry) (g : String) (a : Nat) :
    (s.tableRemove g).deref a = s.deref a := rfl

@[simp] theorem deref_tableReplace (s : Registry) (g : String) (a b : Nat) :
    (s.tableReplace g b).deref a = s.deref a := rfl

theorem store_of_heap {s : Registry} {a : Nat} {r : CbInfo} (h : s.heap a = some r) :
    s.store a r = s := by
  cases s; simp only [store, ← h, Function.update_eq_self]

theorem deref_of_live {s : Registry} {a : Nat} {r : CbInfo} (h : s.heap a = some r)
    (hr : r.refcnt ≠ 0) : s.deref a = .ok r := by
  simp [deref, h, hr]

theorem deref_of_freed {s : Registry} {a : Nat} {r : CbInfo} (h : s.heap a = some r)
    (hr : r.refcnt = 0) : s.deref a = .error .useAfterFree := by
  simp [deref, h, hr]

end Registry

open Registry

/-- `cb_create (list, guid, path, id, callback)`: a fresh active record holding
two references. -/
def cbCreate (list : CallbackList) (guid path : String) (id ref : UInt64) (s : Registry) :
    Nat × Registry :=
  (s.next, s.alloc ⟨true, list, guid, path, none, id, ref, 2⟩)

/-- `cb_take (cb)`. -/
def cbTake (a : Nat) (s : Registry) : Except Fault Registry := do
  let r ← s.deref a
  return s.store a { r with refcnt := r.refcnt + 1 }

/-- `cb_release (cb)`, a no-op on `NULL`. -/
def cbRelease : Option Nat → Registry → Except Fault Registry
  | none, s => .ok s
  | some a, s => do
    let r ← s.deref a
    return s.store a { r with refcnt := r.refcnt - 1 }

/-- `cb_disable (cb)`: deactivate and unlink. -/
def cbDisable (a : Nat) (s : Registry) : Except Fault Registry := do
  let r ← s.deref a
  return s.store a { r with active := false }

@[simp] theorem cbRelease_none (s : Registry) : cbRelease none s = .ok s := rfl

theorem cbTake_of_live {s : Registry} {a : Nat} {r : CbInfo} (h : s.heap a = some r)
    (hr : r.refcnt ≠ 0) : cbTake a s = .ok (s.store a { r with refcnt := r.refcnt + 1 }) := by
  simp [cbTake, deref_of_live h hr, pure, Except.pure, bind, Except.bind]

theorem cbRelease_of_live {s : Registry} {a : Nat} {r : CbInfo} (h : s.heap a = some r)
    (hr : r.refcnt ≠ 0) :
    cbRelease (some a) s = .ok (s.store a { r with refcnt := r.refcnt - 1 }) := by
  simp [cbRelease, deref_of_live h hr, pure, Except.pure, bind, Except.bind]

theorem cbDisable_of_live {s : Registry} {a : Nat} {r : CbInfo} (h : s.heap a = some r)
    (hr : r.refcnt ≠ 0) : cbDisable a s = .ok (s.store a { r with active := false }) := by
  simp [cbDisable, deref_of_live h hr, pure, Except.pure, bind, Except.bind]

/-- `find_callback (guid)`: look the GUID up under the read lock and take a
reference on what was found. -/
def findCallback (guid : String) (s : Registry) : Except Fault (Option Nat × Registry) :=
  match s.guidToCallback guid with
  | none => .ok (none, s)
  | some a => (cbTake a s).map fun s => (some a, s)

end Apteryx
