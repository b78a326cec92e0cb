import Apteryx.Config

/-!
# Apteryx.Effect — what one registration write does

The handlers are written as the C code runs them, primitive by primitive. This
module states, once per function, the registry they leave behind, as long as
the table's entry for the GUID (if any) is a live record of that GUID holding
one reference (`EntryLive`; every reachable state has it, see
`Apteryx.Invariant`):

* a write with a GUID `update_callback` rejects changes nothing;
* a `NULL` write retires the entry (`Registry.unregister`);
* a non-`NULL` write retires the entry and installs a fresh record holding
  the tree's reference only (`Registry.install`);
* `handle_proxies_set` with `NULL` changes nothing, and with a URL and a
  rejected GUID dereferences `NULL`.

Every later proof goes through these lemmas and never unfolds a handler.
`malformed_write_unchanged` reads off them that every malformed write but a
URL under a rejected GUID completes and changes nothing.
-/

namespace Apteryx

open Registry

/-! ## The effects -/

/-- A record after its last reference went: inactive, count zero. -/
def CbInfo.retired (r : CbInfo) : CbInfo := { r with active := false, refcnt := 0 }

/-- Retire the table's entry for `guid` and drop the key. -/
def Registry.unregister (s : Registry) (guid : String) : Registry :=
  match s.guidToCallback guid with
  | none => s
  | some e =>
    match s.heap e with
    | some r => (s.store e r.retired).tableRemove guid
    | none => s.tableRemove guid

/-- Make a fresh active record holding one reference the table's entry for
`guid`. -/
def Registry.install (s : Registry) (list : CallbackList) (guid path : String)
    (uri : Option String) (id ref : UInt64) : Registry :=
  (s.alloc ⟨true, list, guid, path, uri, id, ref, 1⟩).tableReplace guid s.next

/-- The effect of a registration write for `guid` with `value` on `list`, as
`update_callback` followed by the handler's `cb_release` performs it. -/
def Registry.register (s : Registry) (list : CallbackList) (guid : String)
    (value : Option String) : Registry :=
  let (n, pid, callback, _) := sscanfGuid guid
  if n ≠ 3 then s
  else
    match value with
    | some v => (s.unregister guid).install list guid v none pid callback
    | none => s.unregister guid

/-- The precondition of every handler lemma: the table's entry for `guid`, if
any, is a record of that GUID holding exactly one reference. -/
def EntryLive (s : Registry) (guid : String) : Prop :=
  ∀ e, s.guidToCallback guid = some e → ∃ r, s.heap e = some r ∧ r.guid = guid ∧ r.refcnt = 1

/-- `value` starts with `unix://` or `tcp://`. -/
def ProxyUrl (value : String) : Prop :=
  ("unix://".toList.isPrefixOf value.toList || "tcp://".toList.isPrefixOf value.toList) = true

/-- The URI and the pattern `handle_proxies_set` cuts a value into at its last `:`. -/
def proxyParts (value : String) : Option (String × String) :=
  (strrchr value.toList ':').map fun i =>
    let path := value.drop (i + 1)
    (value.take (value.length - path.length - 1), path)

instance (v : String) : Decidable (ProxyUrl v) := inferInstanceAs (Decidable (_ = true))

/-- What a write does to the registry, read off the handler lemmas. -/
def Write.effect (w : Write) (s : Registry) : Except Fault (Bool × Registry) :=
  match w.list, w.value with
  | .proxy, none => .ok (true, s)
  | .proxy, some v =>
    if ProxyUrl v then
      match proxyParts v with
      | some (u, p) =>
        let (n, pid, callback, _) := sscanfGuid w.guid
        if n ≠ 3 then .error .nullDeref
        else .ok (true, (s.unregister w.guid).install .proxy w.guid p (some u) pid callback)
      | none => .error .nullDeref
    else .ok (false, s)
  | list, value => .ok (true, s.register list w.guid value)

@[simp] theorem install_next (s : Registry) (list : CallbackList) (guid path : String)
    (uri : Option String) (id ref : UInt64) :
    (s.install list guid path uri id ref).next = s.next + 1 := rfl

@[simp] theorem unregister_next (s : Registry) (guid : String) :
    (s.unregister guid).next = s.next := by
  unfold Registry.unregister; split <;> [rfl; split <;> rfl]

theorem unregister_of_none {s : Registry} {guid : String} (h : s.guidToCallback guid = none) :
    s.unregister guid = s := by
  simp [Registry.unregister, h]

theorem unregister_of_some {s : Registry} {guid : String} {e : Nat} {r : CbInfo}
    (h : s.guidToCallback guid = some e) (hr : s.heap e = some r) :
    s.unregister guid = (s.store e r.retired).tableRemove guid := by
  simp [Registry.unregister, h, hr]

@[simp] theorem install_heap (s : Registry) (list : CallbackList) (guid path : String)
    (uri : Option String) (id ref : UInt64) :
    (s.install list guid path uri id ref).heap =
      Function.update s.heap s.next (some ⟨true, list, guid, path, uri, id, ref, 1⟩) := rfl

@[simp] theorem install_guidToCallback (s : Registry) (list : CallbackList) (guid path : String)
    (uri : Option String) (id ref : UInt64) :
    (s.install list guid path uri id ref).guidToCallback =
      Function.update s.guidToCallback guid (some s.next) := rfl

/-- `unregister` changes the heap only at the entry it retires. -/
theorem unregister_heap (s : Registry) (guid : String) (a : Nat) :
    (s.unregister guid).heap a =
      if s.guidToCallback guid = some a then (s.heap a).map CbInfo.retired else s.heap a := by
  unfold Registry.unregister
  split
  · simp_all
  · rename_i e he
    split <;> by_cases ha : a = e <;> simp_all [Function.update_noteq, Ne.symm]

@[simp] theorem unregister_guidToCallback (s : Registry) (guid : String) :
    (s.unregister guid).guidToCallback = Function.update s.guidToCallback guid none := by
  unfold Registry.unregister
  split
  · rename_i h; rw [← h, Function.update_eq_self]
  · split <;> rfl

/-! ## `update_callback` -/

variable {s : Registry} {g : String} {e a : Nat} {r : CbInfo}

theorem findCallback_of_none (h : s.guidToCallback g = none) : findCallback g s = .ok (none, s) := by
  simp [findCallback, h]

theorem findCallback_of_some (h : s.guidToCallback g = some e) (hr : s.heap e = some r)
    (hc : r.refcnt ≠ 0) :
    findCallback g s = .ok (some e, s.store e { r with refcnt := r.refcnt + 1 }) := by
  simp [findCallback, h, cbTake_of_live hr hc, Except.map]

theorem unlinkCallback_of_live (hr : s.heap a = some r) (hc : r.refcnt ≠ 0) :
    unlinkCallback a s =
      .ok ((s.store a { r with active := false, refcnt := r.refcnt - 1 }).tableRemove r.guid) := by
  simp [unlinkCallback, cbDisable, cbRelease, deref_of_live hr hc, hc, bind, Except.bind, pure, Except.pure]

theorem createCallback_eq (list : CallbackList) (v : String) (pid cb : UInt64) :
    createCallback list g v pid cb s =
      .ok (some s.next, (s.alloc ⟨true, list, g, v, none, pid, cb, 2⟩).tableReplace g s.next) := by
  simp [createCallback, cbCreate, bind, Except.bind, pure, Except.pure]

theorem guidAccepted_iff : GuidAccepted g ↔ ∃ pid cb h, sscanfGuid g = (3, pid, cb, h) := by
  unfold GuidAccepted
  constructor
  · intro h; exact ⟨_, _, _, Prod.ext h rfl⟩
  · rintro ⟨pid, cb, h, hg⟩; simp [hg]

theorem updateCallback_of_rejected (list : CallbackList) (value : Option String)
    (hg : ¬ GuidAccepted g) : updateCallback list g value s = .ok (none, s) := by
  have hn : (sscanfGuid g).1 ≠ 3 := hg
  simp [updateCallback, hn]

theorem updateCallback_some {list : CallbackList} {v : String} {pid cb h : UInt64}
    (hg : sscanfGuid g = (3, pid, cb, h)) (hl : EntryLive s g) :
    updateCallback list g (some v) s =
      .ok (some s.next, ((s.unregister g).alloc ⟨true, list, g, v, none, pid, cb, 2⟩).tableReplace g s.next) := by
  rcases ht : s.guidToCallback g with _ | e
  · simp [updateCallback, hg, findCallback_of_none ht, createCallback_eq, unregister_of_none ht,
      bind, Except.bind, pure, Except.pure]
  · obtain ⟨r, hr, rfl, hc⟩ := hl e ht
    simp [updateCallback, hg, findCallback_of_some ht hr (by omega), unlinkCallback_of_live, hc,
      createCallback_eq, unregister_of_some ht hr, cbRelease, cbDisable, CbInfo.retired,
      bind, Except.bind, pure, Except.pure]

theorem updateCallback_none_of_none {list : CallbackList} (ha : GuidAccepted g)
    (ht : s.guidToCallback g = none) : updateCallback list g none s = .ok (none, s) := by
  obtain ⟨pid, cb, h, hg⟩ := guidAccepted_iff.mp ha
  simp [updateCallback, hg, findCallback_of_none ht, bind, Except.bind, pure, Except.pure]

theorem updateCallback_none_of_some {list : CallbackList} (ha : GuidAccepted g)
    (ht : s.guidToCallback g = some e) (hr : s.heap e = some r) (hc : r.refcnt ≠ 0) :
    updateCallback list g none s =
      .ok (some e, (s.store e { r with active := false }).tableRemove r.guid) := by
  obtain ⟨pid, cb, h, hg⟩ := guidAccepted_iff.mp ha
  simp [updateCallback, hg, findCallback_of_some ht hr hc, unlinkCallback_of_live, bind, Except.bind, pure, Except.pure]

/-! ## The handlers -/

theorem handleCallbacksSet_eq (list : CallbackList) (pfx path : String) (value : Option String)
    (hl : EntryLive s (path.drop (pfx.length + 1))) :
    handleCallbacksSet list pfx path value s =
      .ok (true, s.register list (path.drop (pfx.length + 1)) value) := by
  unfold handleCallbacksSet
  generalize path.drop (pfx.length + 1) = g at hl ⊢
  by_cases ha : GuidAccepted g
  · obtain ⟨pid, cb, h, hg⟩ := guidAccepted_iff.mp ha
    cases value with
    | some v =>
      simp [updateCallback_some hg hl, Registry.register, hg, Registry.install, cbRelease,
        bind, Except.bind, pure, Except.pure]
    | none =>
      rcases ht : s.guidToCallback g with _ | e
      · simp [updateCallback_none_of_none ha ht, Registry.register, hg, unregister_of_none ht,
          cbRelease, bind, Except.bind, pure, Except.pure]
      · obtain ⟨r, hr, rfl, hc⟩ := hl e ht
        simp [updateCallback_none_of_some ha ht hr (by omega), Registry.register, hg, hc,
          unregister_of_some ht hr, CbInfo.retired, cbRelease, bind, Except.bind, pure, Except.pure]
  · have hn : (sscanfGuid g).1 ≠ 3 := ha
    simp [updateCallback_of_rejected _ _ ha, Registry.register, hn, ok_eq_pure]

theorem proxyUrl_iff {v : String} : ProxyUrl v ↔
    (!"unix://".toList.isPrefixOf v.toList && !"tcp://".toList.isPrefixOf v.toList) = false := by
  simp only [ProxyUrl, Bool.and_eq_false_iff, Bool.not_eq_false', Bool.or_eq_true]

theorem strrchr_eq_none_iff (l : List Char) (c : Char) : strrchr l c = none ↔ c ∉ l := by
  induction l with
  | nil => simp [strrchr]
  | cons x xs ih =>
    simp only [strrchr]
    split
    · simp_all [eq_comm]
    · by_cases hx : x = c <;> simp_all [eq_comm]

/-- Both accepted schemes contain a `:`, so `strrchr` never returns `NULL` on a
URL that passed the check. -/
theorem colon_mem_of_proxyUrl {v : String} (hv : ProxyUrl v) : ':' ∈ v.toList := by
  simp only [ProxyUrl, Bool.or_eq_true, List.isPrefixOf_iff_prefix] at hv
  rcases hv with h | h <;> exact h.subset (by decide)

theorem proxyParts_of_proxyUrl {v : String} (hv : ProxyUrl v) : ∃ u p, proxyParts v = some (u, p) := by
  obtain ⟨i, hi⟩ := Option.ne_none_iff_exists'.mp
    (mt (strrchr_eq_none_iff _ _).mp (not_not.mpr (colon_mem_of_proxyUrl hv)))
  exact ⟨_, _, by rw [proxyParts, hi]; rfl⟩

/-- What a proxy write with a value does: nothing to a value that is not a
URL, a fault under a GUID `update_callback` rejects, and otherwise the GUID's
registration is replaced by the proxy the value names. -/
theorem Write.effect_proxy_cases (g v : String) (s : Registry) :
    (¬ ProxyUrl v ∧ (Write.mk .proxy g (some v)).effect s = .ok (false, s)) ∨
    (ProxyUrl v ∧ ¬ GuidAccepted g ∧ (Write.mk .proxy g (some v)).effect s = .error .nullDeref) ∨
    (∃ u p pid cb h, ProxyUrl v ∧ proxyParts v = some (u, p) ∧ sscanfGuid g = (3, pid, cb, h) ∧
      (Write.mk .proxy g (some v)).effect s =
        .ok (true, (s.unregister g).install .proxy g p (some u) pid cb)) := by
  by_cases hv : ProxyUrl v
  · obtain ⟨u, p, hp⟩ := proxyParts_of_proxyUrl hv
    by_cases ha : GuidAccepted g
    · obtain ⟨pid, cb, h, hg⟩ := guidAccepted_iff.mp ha
      exact .inr (.inr ⟨u, p, pid, cb, h, hv, hp, hg, by simp [Write.effect, hv, hp, hg]⟩)
    · have : (sscanfGuid g).1 ≠ 3 := ha
      exact .inr (.inl ⟨hv, ha, by simp [Write.effect, hv, hp, this]⟩)
  · exact .inl ⟨hv, by simp [Write.effect, hv]⟩

theorem handleProxiesSet_of_not_url {path v : String} (hv : ¬ ProxyUrl v) :
    handleProxiesSet path (some v) s = .ok (false, s) := by
  simp only [ProxyUrl, Bool.or_eq_true, not_or, Bool.not_eq_true] at hv
  simp only [handleProxiesSet, hv.1, hv.2]
  rfl

theorem handleProxiesSet_none {path : String}
    (hl : EntryLive s (path.drop (apteryxProxiesPath.length + 1))) :
    handleProxiesSet path none s = .ok (true, s) := by
  unfold handleProxiesSet
  generalize path.drop (apteryxProxiesPath.length + 1) = g at hl ⊢
  rcases ht : s.guidToCallback g with _ | e
  · simp [findCallback_of_none ht, cbRelease, bind, Except.bind, pure, Except.pure]
  · obtain ⟨r, hr, rfl, hc⟩ := hl e ht
    simp [findCallback_of_some ht hr (by omega), cbRelease, bind, Except.bind, pure, Except.pure]
    exact store_of_heap hr

theorem handleProxiesSet_of_accepted {path v u p : String} {pid cb h : UInt64}
    (hv : ProxyUrl v) (hp : proxyParts v = some (u, p))
    (hg : sscanfGuid (path.drop (apteryxProxiesPath.length + 1)) = (3, pid, cb, h))
    (hl : EntryLive s (path.drop (apteryxProxiesPath.length + 1))) :
    handleProxiesSet path (some v) s =
      .ok (true, (s.unregister (path.drop (apteryxProxiesPath.length + 1))).install .proxy
        (path.drop (apteryxProxiesPath.length + 1)) p (some u) pid cb) := by
  simp only [proxyParts, Option.map_eq_some'] at hp
  obtain ⟨i, hi, hp⟩ := hp
  simp only [Prod.mk.injEq] at hp
  obtain ⟨rfl, rfl⟩ := hp
  unfold handleProxiesSet
  generalize path.drop (apteryxProxiesPath.length + 1) = g at hl hg ⊢
  simp only [proxyUrl_iff.mp hv, hi, Bool.false_eq_true, if_false]
  simp [updateCallback_some hg hl, cbRelease, Registry.install, bind, Except.bind, pure, Except.pure]

theorem handleProxiesSet_of_rejected {path v : String} (hv : ProxyUrl v)
    (hg : ¬ GuidAccepted (path.drop (apteryxProxiesPath.length + 1))) :
    handleProxiesSet path (some v) s = .error .nullDeref := by
  obtain ⟨i, hi⟩ := Option.ne_none_iff_exists'.mp
    (mt (strrchr_eq_none_iff _ _).mp (not_not.mpr (colon_mem_of_proxyUrl hv)))
  unfold handleProxiesSet
  simp only [proxyUrl_iff.mp hv, hi, Bool.false_eq_true, if_false]
  simp [updateCallback_of_rejected _ _ hg, bind, Except.bind, throw, throwThe, MonadExceptOf.throw]

/-! ## Writes -/

theorem drop_append_length : ∀ (p g : String), (p ++ g).drop p.length = g
  | ⟨p⟩, ⟨g⟩ => by
    rw [String.drop_eq]
    show String.mk ((p ++ g).drop p.length) = String.mk g
    rw [List.drop_left]

theorem Write.path_drop (w : Write) : w.path.drop (w.list.configPath.length + 1) = w.guid := by
  have : (w.list.configPath ++ "/").length = w.list.configPath.length + 1 := by
    rw [String.length_append]; rfl
  rw [Write.path, ← this, drop_append_length]

/-- Every handler computes its `Write.effect`, as long as the entry for the
GUID is live. -/
theorem Write.run_eq (w : Write) (hl : EntryLive s w.guid) : w.run s = w.effect s := by
  obtain ⟨list, g, value⟩ := w
  have hd := Write.path_drop ⟨list, g, value⟩
  unfold Write.run
  generalize Write.path ⟨list, g, value⟩ = path at hd ⊢
  simp only at hd hl
  subst hd
  cases list
  case proxy =>
    cases value with
    | none => exact handleProxiesSet_none hl
    | some v =>
      rw [handlerOf]
      rcases Write.effect_proxy_cases (path.drop _) v s with
        ⟨hv, he⟩ | ⟨hv, ha, he⟩ | ⟨u, p, pid, cb, h, hv, hp, hg, he⟩ <;> rw [he]
      · exact handleProxiesSet_of_not_url hv
      · exact handleProxiesSet_of_rejected hv ha
      · exact handleProxiesSet_of_accepted hv hp hg hl
  all_goals exact handleCallbacksSet_eq _ _ _ _ hl

/-- Every malformed write but one completes and leaves the registry as it was:
a GUID `update_callback` rejects under the five plain kinds or with a `NULL`
proxy value, and a proxy value that is not a `unix://` or `tcp://` URL. -/
theorem malformed_write_unchanged (w : Write) (hl : EntryLive s w.guid)
    (hbad : (¬ GuidAccepted w.guid ∧ (w.list = .proxy → w.value = none)) ∨
      (w.list = .proxy ∧ ∃ v, w.value = some v ∧ ¬ ProxyUrl v)) :
    ∃ b, w.run s = .ok (b, s) := by
  rw [Write.run_eq w hl]
  obtain ⟨list, g, value⟩ := w
  rcases hbad with ⟨hg, hp⟩ | ⟨rfl, v, rfl, hv⟩
  · have hn : (sscanfGuid g).1 ≠ 3 := hg
    cases list
    case proxy => simp only [forall_const] at hp; rw [hp]; exact ⟨true, rfl⟩
    all_goals exact ⟨true, by simp [Write.effect, Registry.register, hn]⟩
  · exact ⟨false, by simp [Write.effect, hv]⟩

end Apteryx
