import Apteryx.Proxies

/-!
# Apteryx.Concurrency — two handler writes racing on one GUID

`update_callback` takes `guid_lock` around each access to the table, not
around the whole update: the lookup of `find_callback` runs under the read
lock, and the update that follows under the write lock, taken again. A
handler write is cut here into those regions, each one atomic step of a
`Thread`: the lookup, the write-locked unlinking of the old version, the
unlocked second `cb_disable`/`cb_release` (one step, which only removes
interleavings), `cb_create`, the write-locked `g_hash_table_replace`, the
write-locked removal, and the handler's `cb_release`.

A `Thread` follows `update_callback` as the five handlers that share
`handleCallbacksSet` call it: `handle_proxies_set` stores the URI and the
path after `update_callback` returns, and is not cut into regions here.
`Thread.finish_start` shows that the steps of one thread, run alone, are
exactly `handle_<kind>_set`. `interleave` runs two threads under a
schedule. When both lookups run before either update, the two threads both
hold the old record and each gives up two references on it, one more than
there are: the second thread then touches a freed record
(`interleaved_writes_use_after_free`, at a registered watcher; over every
such schedule in `Apteryx.Racing`).
-/

namespace Apteryx

open Registry

/-- The atomic region a handler thread runs next. -/
inductive Pc
  /-- Line 93: `find_callback` under the read lock. -/
  | find
  /-- Lines 102–106: unlink, disable and release the old version, write-locked. -/
  | unlinkOld
  /-- Lines 116–117: `cb_disable` and `cb_release` on the old version again. -/
  | dropOld
  /-- Line 119: `cb_create`. -/
  | create
  /-- Lines 122–124: `g_hash_table_replace`, write-locked. -/
  | publish
  /-- Lines 132–136: unlink, disable and release, write-locked. -/
  | remove
  /-- The handler's `cb_release` of what `update_callback` returned. -/
  | release
  | done
  deriving DecidableEq, Repr

/-- A handler write in flight: its arguments, the parsed GUID fields, the
local `cb`, and where it is. -/
structure Thread where
  list : CallbackList
  guid : String
  value : Option String
  pid : UInt64
  callback : UInt64
  cb : Option Nat
  pc : Pc
  deriving DecidableEq, Repr

/-- A handler write before its first shared access. The GUID parse is local;
a rejected GUID makes `update_callback` return `NULL` at once. -/
def Thread.start (list : CallbackList) (guid : String) (value : Option String) : Thread :=
  let (n, pid, callback, _) := sscanfGuid guid
  ⟨list, guid, value, pid, callback, none, if n ≠ 3 then .release else .find⟩

/-- Where `update_callback` goes after the lookup. -/
def afterFind : Option Nat → Option String → Pc
  | none, none => .release
  | some _, some _ => .unlinkOld
  | none, some _ => .create
  | some _, none => .remove

/-- One atomic step of a thread. -/
def Thread.step (t : Thread) (s : Registry) : Except Fault (Thread × Registry) :=
  match t.pc, t.cb, t.value with
  | .find, _, _ => do
    let (cb, s) ← findCallback t.guid s
    pure ({ t with cb := cb, pc := afterFind cb t.value }, s)
  | .unlinkOld, some a, _ => do
    let s ← unlinkCallback a s
    pure ({ t with pc := .dropOld }, s)
  | .dropOld, some a, _ => do
    let s ← cbDisable a s
    let s ← cbRelease (some a) s
    pure ({ t with pc := .create }, s)
  | .create, _, some v =>
    let (a, s) := cbCreate t.list t.guid v t.pid t.callback s
    pure ({ t with cb := some a, pc := .publish }, s)
  | .publish, some a, _ => do
    let r ← s.deref a
    pure ({ t with pc := .release }, s.tableReplace r.guid a)
  | .remove, some a, _ => do
    let s ← unlinkCallback a s
    pure ({ t with pc := .release }, s)
  | .release, cb, _ => do
    let s ← cbRelease cb s
    pure ({ t with pc := .done }, s)
  | _, _, _ => pure ({ t with pc := .done }, s)

/-- Run one thread alone for at most `fuel` steps, to completion. -/
def Thread.finish : Nat → Thread → Registry → Except Fault Registry
  | 0, _, s => pure s
  | fuel + 1, t, s =>
    if t.pc = .done then pure s
    else do
      let (t, s) ← t.step s
      Thread.finish fuel t s

theorem Thread.finish_succ {t : Thread} (h : t.pc ≠ .done) (n : Nat) (s : Registry) :
    Thread.finish (n + 1) t s = (t.step s >>= fun (t, s) => Thread.finish n t s) := by
  simp [Thread.finish, h]

theorem Thread.finish_done {t : Thread} (h : t.pc = .done) (n : Nat) (s : Registry) :
    Thread.finish n t s = pure s := by
  cases n <;> simp [Thread.finish, h]

/-- Run two threads under a schedule: `false` steps the first, `true` the
second. -/
def interleave : List Bool → Thread → Thread → Registry → Except Fault (Thread × Thread × Registry)
  | [], t₁, t₂, s => pure (t₁, t₂, s)
  | false :: σ, t₁, t₂, s => do
    let (t₁, s) ← t₁.step s
    interleave σ t₁ t₂ s
  | true :: σ, t₁, t₂, s => do
    let (t₂, s) ← t₂.step s
    interleave σ t₁ t₂ s

/-! ## One thread alone is the handler -/

/-- The atomic steps of one thread, run alone, compute `handle_<kind>_set`. -/
theorem Thread.finish_start (list : CallbackList) (pfx path : String) (value : Option String)
    (s : Registry) :
    Thread.finish 7 (Thread.start list (path.drop (pfx.length + 1)) value) s =
      Prod.snd <$> handleCallbacksSet list pfx path value s := by
  unfold handleCallbacksSet
  generalize path.drop (pfx.length + 1) = g
  by_cases ha : GuidAccepted g
  · obtain ⟨pid, cb, h, hg⟩ := guidAccepted_iff.mp ha
    simp only [Thread.start, hg, updateCallback]
    rcases hf : findCallback g s with f | ⟨c, s₁⟩
    · simp [Thread.finish_succ, Thread.step, hf, ok_eq_pure]
    · cases c <;> cases value <;>
        simp [Thread.finish_succ, Thread.finish_done, Thread.step, hf, afterFind, createCallback,
          cbCreate, cbRelease, ok_eq_pure]
  · have hn : (sscanfGuid g).1 ≠ 3 := ha
    simp [Thread.start, hn, updateCallback, Thread.finish_succ, Thread.finish_done, Thread.step,
      ok_eq_pure]

/-! ## Two threads on one GUID -/

/-- The race at a registered watcher: `/b` and `/c` written concurrently to
the path of the watcher `/a` fault, while the two writes run one after the
other, in either order, complete and leave the later value registered with
one reference. -/
theorem interleaved_writes_use_after_free :
    (do
      let s₀ ← configInit 0 fun _ => 0
      let (_, s₁) ← (Write.mk .watch "1-2-3" (some "/a")).run s₀
      let (_, _, _) ← interleave [false, true, false, true, false, true]
        (Thread.start .watch "1-2-3" (some "/b")) (Thread.start .watch "1-2-3" (some "/c")) s₁
      pure ()) = Except.error .useAfterFree ∧
    (do
      let s₀ ← configInit 0 fun _ => 0
      let (_, s₁) ← (Write.mk .watch "1-2-3" (some "/a")).run s₀
      let (_, s₂) ← (Write.mk .watch "1-2-3" (some "/b")).run s₁
      let (_, s₃) ← (Write.mk .watch "1-2-3" (some "/c")).run s₂
      pure ((s₃.guidToCallback "1-2-3").bind fun a => (s₃.heap a).map fun r => (r.path, r.refcnt))) =
      Except.ok (some ("/c", 1)) ∧
    (do
      let s₀ ← configInit 0 fun _ => 0
      let (_, s₁) ← (Write.mk .watch "1-2-3" (some "/a")).run s₀
      let (_, s₂) ← (Write.mk .watch "1-2-3" (some "/c")).run s₁
      let (_, s₃) ← (Write.mk .watch "1-2-3" (some "/b")).run s₂
      pure ((s₃.guidToCallback "1-2-3").bind fun a => (s₃.heap a).map fun r => (r.path, r.refcnt))) =
      Except.ok (some ("/b", 1)) :=
  ⟨rfl, rfl, rfl⟩

end Apteryx
