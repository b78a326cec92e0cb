import Apteryx.Effect

/-!
# Apteryx.Invariant — the registry invariant over every run

`Inv` is what holds between writes, from `config_init` on: the table maps
each GUID to a live, active record of that GUID; every active record holds
exactly one reference (the tree's) and, unless `config_init` made it, is the
table's entry for its GUID; every inactive record has been freed. The
records `config_init` made occupy the first `builtinCount` addresses, carry
GUIDs `update_callback` rejects, and are never touched again.

The pipeline is the usual one: `Inv` holds of `config_init`'s registry
(`inv_initial`), `unregister` and `install` keep it (`Inv.unregister`,
`Inv.install`), so every write keeps it (`Inv.run`), and so every reachable
state has it (`Reachable.inv`). Along the way: a write faults only in the
one way `handle_proxies_set` can (`Write.run_fault`), and never touches a
freed record (`Write.run_heap_of_inactive`).
-/

namespace Apteryx

open Registry

/-- The number of records `config_init` creates. -/
def builtinCount : Nat := builtins.length

/-- The registry invariant. -/
structure Inv (s : Registry) : Prop where
  builtin_le_next : builtinCount ≤ s.next
  fresh : ∀ a, s.next ≤ a → s.heap a = none
  builtin : ∀ a < builtinCount, ∃ r, s.heap a = some r ∧ r.active ∧ ¬ GuidAccepted r.guid
  table : ∀ g a, s.guidToCallback g = some a →
    builtinCount ≤ a ∧ ∃ r, s.heap a = some r ∧ r.active ∧ r.guid = g
  active_one : ∀ a r, s.heap a = some r → r.active → r.refcnt = 1
  inactive_zero : ∀ a r, s.heap a = some r → r.active = false → r.refcnt = 0
  active_entry : ∀ a r, s.heap a = some r → r.active → builtinCount ≤ a →
    s.guidToCallback r.guid = some a

variable {s s' : Registry}

theorem Inv.entryLive (hI : Inv s) (g : String) : EntryLive s g := by
  intro e he
  obtain ⟨-, r, hr, hact, hg⟩ := hI.table g e he
  exact ⟨r, hr, hg, hI.active_one e r hr hact⟩

theorem Inv.lt_next (hI : Inv s) {a : Nat} {r : CbInfo} (h : s.heap a = some r) : a < s.next :=
  Nat.lt_of_not_le fun hle => by simp [hI.fresh a hle] at h

/-! ## The two effects keep the invariant -/

theorem Inv.unregister (hI : Inv s) (g : String) : Inv (s.unregister g) := by
  rcases ht : s.guidToCallback g with _ | e
  · rwa [unregister_of_none ht]
  obtain ⟨he, re, hre, hact, rfl⟩ := hI.table _ e ht
  -- only the entry `e` changes: it is retired; the key goes
  have hheap : ∀ a, (s.unregister re.guid).heap a =
      if a = e then some re.retired else s.heap a := by
    intro a; rw [unregister_heap, ht]
    by_cases h : a = e
    · subst h; simp [hre]
    · simp [h, Ne.symm h]
  constructor
  · simpa using hI.builtin_le_next
  · intro a ha
    have : a ≠ e := fun h => by have := hI.lt_next hre; simp at ha; omega
    simpa [hheap, this] using hI.fresh a (by simpa using ha)
  · intro a ha
    have : a ≠ e := by omega
    simpa [hheap, this] using hI.builtin a ha
  · intro g a hg
    have hgne : g ≠ re.guid := by rintro rfl; simp at hg
    simp only [unregister_guidToCallback, Function.update_noteq hgne] at hg
    obtain ⟨hle, r, hr, hact', rfl⟩ := hI.table _ a hg
    have : a ≠ e := by rintro rfl; simp [hre] at hr; exact hgne (by rw [hr])
    exact ⟨hle, r, by simp [hheap, this, hr], hact', rfl⟩
  · intro a r hr hact
    by_cases h : a = e
    · simp [hheap, h, CbInfo.retired] at hr; simp [← hr] at hact
    · simp [hheap, h] at hr; exact hI.active_one a r hr hact
  · intro a r hr hact
    by_cases h : a = e
    · simp [hheap, h, CbInfo.retired] at hr; simp [← hr]
    · simp [hheap, h] at hr; exact hI.inactive_zero a r hr hact
  · intro a r hr hact hle
    by_cases h : a = e
    · simp [hheap, h, CbInfo.retired] at hr; simp [← hr] at hact
    · simp [hheap, h] at hr
      have hent := hI.active_entry a r hr hact hle
      have hgne : r.guid ≠ re.guid := fun hg => h (by rw [hg, ht] at hent; exact (Option.some.inj hent).symm)
      simp [Function.update_noteq hgne, hent]

theorem Inv.install (hI : Inv s) {g : String} (ht : s.guidToCallback g = none)
    (list : CallbackList) (path : String) (uri : Option String) (id ref : UInt64) :
    Inv (s.install list g path uri id ref) := by
  have hnext := hI.builtin_le_next
  -- every allocated address is below `s.next`, where the new record goes
  have hne : ∀ a r, s.heap a = some r → a ≠ s.next := fun a r h => Nat.ne_of_lt (hI.lt_next h)
  constructor
  · simp; omega
  · intro a ha
    simp at ha
    simp [Function.update_noteq (show a ≠ s.next by omega), hI.fresh a (by omega)]
  · intro a ha
    simpa [Function.update_noteq (show a ≠ s.next by omega)] using hI.builtin a ha
  · intro g' a hg'
    by_cases hgg : g' = g
    · subst hgg; simp at hg'; subst hg'; simpa using hnext
    · simp [Function.update_noteq hgg] at hg'
      obtain ⟨hle, r, hr, hact, rfl⟩ := hI.table _ a hg'
      exact ⟨hle, r, by simp [Function.update_noteq (hne a r hr), hr], hact, rfl⟩
  · intro a r hr hact
    by_cases ha : a = s.next
    · subst ha; simp at hr; simp [← hr]
    · simp [Function.update_noteq ha] at hr; exact hI.active_one a r hr hact
  · intro a r hr hact
    by_cases ha : a = s.next
    · subst ha; simp at hr; simp [← hr] at hact
    · simp [Function.update_noteq ha] at hr; exact hI.inactive_zero a r hr hact
  · intro a r hr hact hle
    by_cases ha : a = s.next
    · subst ha; simp at hr; simp [← hr]
    · simp [Function.update_noteq ha] at hr
      have hent := hI.active_entry a r hr hact hle
      have hgne : r.guid ≠ g := by rintro rfl; simp [ht] at hent
      simp [Function.update_noteq hgne, hent]

/-! ## Every write keeps the invariant -/

/-- What a registration write can leave behind. -/
def Outcome (s : Registry) (list : CallbackList) (g : String) (s' : Registry) : Prop :=
  s' = s ∨ (GuidAccepted g ∧ s' = s.unregister g) ∨
    (GuidAccepted g ∧ ∃ p uri id ref, s' = (s.unregister g).install list g p uri id ref)

theorem register_outcome (list : CallbackList) (g : String) (value : Option String) :
    Outcome s list g (s.register list g value) := by
  unfold Registry.register
  by_cases ha : GuidAccepted g
  · obtain ⟨pid, cb, h, hg⟩ := guidAccepted_iff.mp ha
    cases value with
    | none => exact .inr (.inl ⟨ha, by simp [hg]⟩)
    | some v => exact .inr (.inr ⟨ha, v, none, pid, cb, by simp [hg]⟩)
  · have : (sscanfGuid g).1 ≠ 3 := ha
    simp [Outcome, this]

theorem Write.effect_outcome {w : Write} {b : Bool} (h : w.effect s = .ok (b, s')) :
    Outcome s w.list w.guid s' := by
  obtain ⟨list, g, value⟩ := w
  cases list
  case proxy =>
    cases value with
    | none => cases h; exact .inl rfl
    | some v =>
      rcases Write.effect_proxy_cases g v s with
        ⟨-, he⟩ | ⟨-, -, he⟩ | ⟨u, p, pid, cb, hh, -, -, hg, he⟩ <;> rw [he] at h <;> cases h
      · exact .inl rfl
      · exact .inr (.inr ⟨guidAccepted_iff.mpr ⟨pid, cb, hh, hg⟩, _, _, _, _, rfl⟩)
  all_goals (cases h; exact register_outcome _ _ _)

theorem Inv.outcome (hI : Inv s) {list : CallbackList} {g : String} (h : Outcome s list g s') :
    Inv s' := by
  rcases h with rfl | ⟨-, rfl⟩ | ⟨-, p, uri, id, ref, rfl⟩
  · exact hI
  · exact hI.unregister g
  · exact (hI.unregister g).install (by simp) list p uri id ref

theorem Write.run_outcome (hI : Inv s) {w : Write} {b : Bool} (h : w.run s = .ok (b, s')) :
    Outcome s w.list w.guid s' := by
  rw [Write.run_eq w (hI.entryLive _)] at h
  exact Write.effect_outcome h

theorem Inv.run (hI : Inv s) {w : Write} {b : Bool} (h : w.run s = .ok (b, s')) : Inv s' :=
  hI.outcome (Write.run_outcome hI h)

theorem Inv.register (hI : Inv s) (list : CallbackList) (g : String) (value : Option String) :
    Inv (s.register list g value) :=
  hI.outcome (register_outcome list g value)

/-- A write of one of the five kinds that share `handleCallbacksSet`
completes and registers its value. -/
theorem Write.run_of_ne_proxy (hI : Inv s) {w : Write} (hl : w.list ≠ .proxy) :
    w.run s = .ok (true, s.register w.list w.guid w.value) := by
  rw [Write.run_eq w (hI.entryLive _)]
  obtain ⟨list, g, value⟩ := w
  cases list <;> first | exact absurd rfl hl | cases value <;> rfl

/-- The only fault a write can hit from a state with the invariant: a proxy
URL under a GUID `update_callback` rejects, whose `NULL` result
`handle_proxies_set` dereferences. In particular no write releases a freed
record. -/
theorem Write.run_fault (hI : Inv s) {w : Write} {f : Fault} (h : w.run s = .error f) :
    f = .nullDeref ∧ w.list = .proxy ∧ (∃ v, w.value = some v ∧ ProxyUrl v) ∧
      ¬ GuidAccepted w.guid := by
  rw [Write.run_eq w (hI.entryLive _)] at h
  obtain ⟨list, g, value⟩ := w
  cases list <;> try cases h
  cases value with
  | none => cases h
  | some v =>
    rcases Write.effect_proxy_cases g v s with
      ⟨-, he⟩ | ⟨hv, ha, he⟩ | ⟨_, _, _, _, _, -, -, -, he⟩ <;> rw [he] at h <;> cases h
    exact ⟨rfl, rfl, ⟨v, rfl, hv⟩, ha⟩

/-- A completed write never touches a freed record. -/
theorem Write.run_heap_of_inactive (hI : Inv s) {w : Write} {b : Bool}
    (h : w.run s = .ok (b, s')) {a : Nat} {r : CbInfo} (hr : s.heap a = some r)
    (hact : r.active = false) : s'.heap a = some r := by
  -- the entry a write retires is active, and the record it installs is fresh
  have hunreg : ∀ g, (s.unregister g).heap a = some r := by
    intro g
    rw [unregister_heap]
    split
    · rename_i hg
      obtain ⟨-, r', hr', hact', -⟩ := hI.table g a hg
      simp [hr] at hr'; simp [hr'] at hact; simp [hact] at hact'
    · exact hr
  rcases Write.run_outcome hI h with rfl | ⟨-, rfl⟩ | ⟨-, p, uri, id, ref, rfl⟩
  · exact hr
  · exact hunreg _
  · simp [Function.update_apply, Nat.ne_of_lt (hI.lt_next hr), hunreg]

/-! ## `config_init` -/

/-- The record `config_init` leaves for a built-in once its own reference is
dropped. -/
def builtinRecord (pid : UInt64) (addr : Builtin → UInt64)
    (b : CallbackList × String × String × Builtin) : CbInfo :=
  ⟨true, b.1, b.2.1, b.2.2.1, none, pid, addr b.2.2.2, 1⟩

theorem initCallback_eq (pid : UInt64) (addr : Builtin → UInt64) (s : Registry)
    (b : CallbackList × String × String × Builtin) :
    initCallback pid addr s b = .ok (s.alloc (builtinRecord pid addr b)) := by
  simp [initCallback, cbCreate, cbRelease, builtinRecord, bind, Except.bind, pure, Except.pure]

theorem configInit_eq (pid : UInt64) (addr : Builtin → UInt64) :
    configInit pid addr =
      .ok (builtins.foldl (fun s b => s.alloc (builtinRecord pid addr b)) Registry.empty) := by
  unfold configInit
  generalize Registry.empty = s
  induction builtins generalizing s with
  | nil => rfl
  | cons b bs ih => simp [List.foldlM, initCallback_eq, ih, bind, Except.bind]

/-- The records of `config_init` carry GUIDs `update_callback` rejects. -/
theorem builtins_rejected : ∀ b ∈ builtins, ¬ GuidAccepted b.2.1 := by decide

/-- What `config_init` has built after each of its pairs: an empty table, and
active records holding one reference at every address below `next`, all with
GUIDs `update_callback` rejects. -/
structure InitShape (s : Registry) : Prop where
  table : ∀ g, s.guidToCallback g = none
  live : ∀ a, a < s.next → ∃ r, s.heap a = some r
  heap : ∀ a r, s.heap a = some r → a < s.next ∧ r.active ∧ r.refcnt = 1 ∧ ¬ GuidAccepted r.guid

theorem InitShape.alloc (h : InitShape s) {r : CbInfo} (hact : r.active) (hone : r.refcnt = 1)
    (hg : ¬ GuidAccepted r.guid) : InitShape (s.alloc r) := by
  refine ⟨fun g => by simpa using h.table g, fun a ha => ?_, fun a r' hr' => ?_⟩
  · by_cases hn : a = s.next
    · exact ⟨r, by simp [hn]⟩
    · simpa [Function.update_noteq hn] using h.live a (by simp at ha; omega)
  · by_cases hn : a = s.next
    · subst hn; simp at hr'; subst hr'; simp [hact, hone, hg]
    · simp [Function.update_noteq hn] at hr'
      obtain ⟨hlt, rest⟩ := h.heap a r' hr'
      exact ⟨by simp; omega, rest⟩

theorem InitShape.inv (h : InitShape s) (hn : s.next = builtinCount) : Inv s where
  builtin_le_next := hn.ge
  fresh a ha := by
    rcases hs : s.heap a with _ | r
    · rfl
    · have := (h.heap a r hs).1; omega
  builtin a ha := by
    obtain ⟨r, hr⟩ := h.live a (by omega)
    obtain ⟨-, hact, -, hg⟩ := h.heap a r hr
    exact ⟨r, hr, hact, hg⟩
  table g a hg := by simp [h.table g] at hg
  active_one a r hr _ := (h.heap a r hr).2.2.1
  inactive_zero a r hr hact := by simp [(h.heap a r hr).2.1] at hact
  active_entry a r hr _ hle := by have := (h.heap a r hr).1; omega

theorem inv_initial (h : Initial s) : Inv s := by
  obtain ⟨pid, addr, hs⟩ := h
  rw [configInit_eq] at hs
  cases hs
  -- fold the invariant of the partial registry along the built-ins
  have key : ∀ (bs : List (CallbackList × String × String × Builtin)) (s : Registry),
      (∀ b ∈ bs, ¬ GuidAccepted b.2.1) → InitShape s →
      InitShape (bs.foldl (fun s b => s.alloc (builtinRecord pid addr b)) s) ∧
      (bs.foldl (fun s b => s.alloc (builtinRecord pid addr b)) s).next = s.next + bs.length := by
    intro bs
    induction bs with
    | nil => intro s _ hs; exact ⟨hs, rfl⟩
    | cons b bs ih =>
      intro s hb hs
      obtain ⟨h1, h2⟩ := ih _ (fun b' hb' => hb b' (List.mem_cons_of_mem _ hb'))
        (hs.alloc (r := builtinRecord pid addr b) rfl rfl (hb b (List.mem_cons_self _ _)))
      exact ⟨h1, by simp [h2]; omega⟩
  obtain ⟨hshape, hnext⟩ := key builtins Registry.empty builtins_rejected
    ⟨fun _ => rfl, fun a ha => absurd ha (Nat.not_lt_zero a), fun _ _ h => by simp [Registry.empty] at h⟩
  exact hshape.inv (by rw [hnext]; rfl)

/-- Every reachable registry satisfies the invariant. -/
theorem Reachable.inv (h : Reachable s) : Inv s := by
  induction h with
  | init hi => exact inv_initial hi
  | step w _ hrun ih => exact ih.run hrun

theorem reachable_configInit (pid : UInt64) (addr : Builtin → UInt64) :
    ∃ s, configInit pid addr = .ok s ∧ Reachable s :=
  ⟨_, configInit_eq pid addr, .init ⟨pid, addr, configInit_eq pid addr⟩⟩

/-! ## Reference counts along every run -/

/-- Take the reference contract of `cb_create`, `cb_take`, `cb_release` and
`cb_disable`. Every registry reached from `config_init` by completed writes,
replacements, removals of absent GUIDs and GUIDs reused across kinds
included:
(i) maps each GUID to an active record of that GUID;
(ii) has every active record made after `config_init` as its GUID's entry;
(iii) holds exactly one reference on each active record and none on each
inactive one, runs no write that releases a freed record, and no completed
write changes a freed record again: the two `cb_disable`/`cb_release` pairs
on a replaced record bring it from one reference (plus `find_callback`'s) to
zero, once. -/
theorem registry_refcounts {s : Registry} (hs : Reachable s) :
    (∀ g a, s.guidToCallback g = some a → ∃ r, s.heap a = some r ∧ r.active ∧ r.guid = g) ∧
    (∀ a r, s.heap a = some r → r.active → builtinCount ≤ a →
      s.guidToCallback r.guid = some a) ∧
    (∀ a r, s.heap a = some r → r.active → r.refcnt = 1) ∧
    (∀ a r, s.heap a = some r → r.active = false → r.refcnt = 0) ∧
    (∀ w : Write, w.run s ≠ .error .useAfterFree) ∧
    (∀ (w : Write) (b : Bool) s' a r, w.run s = .ok (b, s') → s.heap a = some r →
      r.active = false → s'.heap a = some r) := by
  have hI := hs.inv
  refine ⟨fun g a h => (hI.table g a h).2, hI.active_entry, hI.active_one, hI.inactive_zero,
    fun w h => ?_, fun w b s' a r h hr hact => Write.run_heap_of_inactive hI h hr hact⟩
  cases (Write.run_fault hI h).1

theorem registry_refcounts_initial :
    ∃ s, configInit 0 (fun _ => 0) = .ok s ∧
      (Write.mk .watch "1-2-3" none).run s ≠ .error .useAfterFree := by
  obtain ⟨s, hs0, hs⟩ := reachable_configInit 0 fun _ => 0
  exact ⟨s, hs0, (registry_refcounts hs).2.2.2.2.1 _⟩

end Apteryx
