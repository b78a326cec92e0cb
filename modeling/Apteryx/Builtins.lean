import Apteryx.Proxies

/-!
# Apteryx.Builtins — the callbacks `config_init` registers for itself

Besides the six registration handlers, `config_init` registers a refresher
for `/apteryx/statistics/*` and an indexer and a provider for
`/apteryx/counters/`.

`handle_statistics_refresh` prunes the statistics tree and has `cb_foreach`
call `_statistics_fn` on every callback of every tree, which adds
`"<count>,<min>,<avg>,<max>"` at `<tree>/<guid>`. That this leaves one entry
per callback rests on a fact of the registry: no two active records of one
tree share a GUID (`active_records_keyed`). The records writes make are the
table's entries, keyed by GUID; those of `config_init` are never touched
again (`Reachable.builtin_heap`), have distinct tree and name pairs, and
carry GUIDs no write can register (`Reachable.registeredAccepted`). Hence
`statistics_refresh_mirrors_registry`: whatever order the tree walk takes,
every active record has its entry, nothing else is left under
`/apteryx/statistics`, and the rest of the tree is untouched.

`handle_counters_index` lists a path per field of `X_FIELDS`, and
`handle_counters_get` answers from the last `/` of a path. The provider
answers exactly the paths the indexer lists (`counters_index_get`), given
what the C compiler guarantees of the field names: they are distinct, and
have no `/`.

The path tree, `cb_foreach` and the records' counters live outside
`config.c`; they are modelled from the spec.
-/

namespace Apteryx

open Registry

variable {s s' : Registry}

/-! ## Active records are keyed by tree and GUID -/

theorem Registry.foldl_alloc_heap {α : Type} (f : α → CbInfo) (bs : List α) (s : Registry)
    (hfresh : ∀ a, s.next ≤ a → s.heap a = none) (a : Nat) :
    (bs.foldl (fun s b => s.alloc (f b)) s).heap a =
      if a < s.next then s.heap a else (bs[a - s.next]?).map f := by
  induction bs generalizing s with
  | nil => split <;> simp_all
  | cons b bs ih =>
    rw [List.foldl_cons, ih _ fun a' h => by
      simp [Function.update_noteq (show a' ≠ s.next by simp at h; omega), hfresh a' (by simp at h; omega)]]
    simp only [alloc_heap, alloc_next, Function.update_apply]
    rcases Nat.lt_trichotomy a s.next with h | rfl | h
    · simp [h, Nat.ne_of_lt h, Nat.lt_succ_of_lt h]
    · simp
    · have hs : a - s.next = a - (s.next + 1) + 1 := by omega
      simp [Nat.not_lt.mpr h.le, Nat.ne_of_gt h, Nat.not_lt.mpr (Nat.succ_le_of_lt h), hs]

theorem initial_heap (h : Initial s) :
    ∃ pid addr, ∀ a, s.heap a = (builtins[a]?).map (builtinRecord pid addr) := by
  obtain ⟨pid, addr, hs⟩ := h
  rw [configInit_eq] at hs
  cases hs
  exact ⟨pid, addr, fun a => by
    simpa [Registry.empty] using Registry.foldl_alloc_heap _ builtins Registry.empty (fun _ _ => rfl) a⟩

theorem Inv.outcome_heap_builtin (hI : Inv s) {l : CallbackList} {g : String} (h : Outcome s l g s')
    {a : Nat} (ha : a < builtinCount) : s'.heap a = s.heap a := by
  have hu : ∀ g, (s.unregister g).heap a = s.heap a := fun g => by
    rw [unregister_heap, if_neg fun ht => absurd (hI.table g a ht).1 (Nat.not_le.mpr ha)]
  rcases h with rfl | ⟨-, rfl⟩ | ⟨-, p, uri, id, ref, rfl⟩
  · rfl
  · exact hu g
  · have := hI.builtin_le_next
    rw [install_heap, unregister_next, Function.update_noteq (by omega), hu]

/-- The records `config_init` made are never touched again. -/
theorem Reachable.builtin_heap (h : Reachable s) :
    ∃ pid addr, ∀ a < builtinCount, s.heap a = (builtins[a]?).map (builtinRecord pid addr) := by
  induction h with
  | init hi =>
    obtain ⟨pid, addr, h⟩ := initial_heap hi
    exact ⟨pid, addr, fun a _ => h a⟩
  | step w hs hrun ih =>
    obtain ⟨pid, addr, h⟩ := ih
    exact ⟨pid, addr, fun a ha =>
      (hs.inv.outcome_heap_builtin (Write.run_outcome hs.inv hrun) ha).trans (h a ha)⟩

/-- Every record a write made carries a GUID `update_callback` accepts. -/
def RegisteredAccepted (s : Registry) : Prop :=
  ∀ a r, s.heap a = some r → builtinCount ≤ a → GuidAccepted r.guid

theorem RegisteredAccepted.outcome (hs : RegisteredAccepted s) {l : CallbackList} {g : String}
    (h : Outcome s l g s') : RegisteredAccepted s' := by
  have hu : ∀ g, RegisteredAccepted (s.unregister g) := fun g a r hr hle => by
    rw [unregister_heap] at hr
    split at hr
    · obtain ⟨r₀, h₀, rfl⟩ := Option.map_eq_some'.mp hr
      exact hs a r₀ h₀ hle
    · exact hs a r hr hle
  rcases h with rfl | ⟨-, rfl⟩ | ⟨hg, p, uri, id, ref, rfl⟩
  · exact hs
  · exact hu g
  · intro a r hr hle
    simp only [install_heap, unregister_next, Function.update_apply] at hr
    split at hr
    · cases hr; exact hg
    · exact hu g a r hr hle

theorem Reachable.registeredAccepted (h : Reachable s) : RegisteredAccepted s := by
  induction h with
  | init hi =>
    obtain ⟨pid, addr, h⟩ := initial_heap hi
    intro a r hr hle
    rw [h, List.getElem?_eq_none hle] at hr
    cases hr
  | step w hs hrun ih => exact ih.outcome (Write.run_outcome hs.inv hrun)

/-- `config_init`'s records have distinct trees or GUIDs. -/
theorem builtins_keyed : (builtins.map fun b => (b.1, b.2.1)).Nodup := by decide

/-- A record of `config_init` and a record a write made never share a GUID. -/
theorem Reachable.guid_ne_of_builtin (hs : Reachable s) {a a' : Nat} {r r' : CbInfo}
    (hr : s.heap a = some r) (hr' : s.heap a' = some r') (hb : a < builtinCount)
    (hb' : builtinCount ≤ a') : r.guid ≠ r'.guid := by
  obtain ⟨r₀, h₀, -, hrej⟩ := hs.inv.builtin a hb
  rw [hr] at h₀; cases h₀
  exact fun hg => hrej (hg ▸ hs.registeredAccepted a' r' hr' hb')

theorem Reachable.active_keyed (hs : Reachable s) {a a' : Nat} {r r' : CbInfo}
    (hr : s.heap a = some r) (hr' : s.heap a' = some r') (hact : r.active) (hact' : r'.active)
    (hl : r.list = r'.list) (hg : r.guid = r'.guid) : a = a' := by
  have hI := hs.inv
  by_cases hb : a < builtinCount <;> by_cases hb' : a' < builtinCount
  · obtain ⟨pid, addr, h⟩ := hs.builtin_heap
    rw [h a hb] at hr
    rw [h a' hb'] at hr'
    obtain ⟨b, he, rfl⟩ := Option.map_eq_some'.mp hr
    obtain ⟨b', he', rfl⟩ := Option.map_eq_some'.mp hr'
    refine List.getElem?_inj (by simpa using hb) builtins_keyed ?_
    simp only [List.getElem?_map, he, he', Option.map_some', Option.some.injEq]
    simp only [builtinRecord] at hl hg
    rw [hl, hg]
  · exact absurd hg (hs.guid_ne_of_builtin hr hr' hb (Nat.le_of_not_lt hb'))
  · exact absurd hg.symm (hs.guid_ne_of_builtin hr' hr hb' (Nat.le_of_not_lt hb))
  · have ht := hI.active_entry a r hr hact (Nat.le_of_not_lt hb)
    rw [hg, hI.active_entry a' r' hr' hact' (Nat.le_of_not_lt hb')] at ht
    exact (Option.some.inj ht).symm

/-- In every reachable registry no two active records of one tree share a GUID. -/
theorem active_records_keyed (hs : Reachable s) {a a' : Nat} {r r' : CbInfo}
    (hr : s.heap a = some r) (hr' : s.heap a' = some r') (hact : r.active) (hact' : r'.active)
    (hl : r.list = r'.list) (hg : r.guid = r'.guid) : a = a' :=
  hs.active_keyed hr hr' hact hact' hl hg

theorem active_records_keyed_initial :
    ∃ s r, Reachable s ∧ s.heap 0 = some r ∧ r.active ∧ (0 : Nat) = 0 := by
  obtain ⟨s, hs0, hs⟩ := reachable_configInit 0 fun _ => 0
  rw [configInit_eq] at hs0
  cases hs0
  exact ⟨_, _, hs, rfl, rfl, active_records_keyed hs rfl rfl rfl rfl rfl rfl⟩

/-! ## The statistics refresher -/

/-- Modelled from the spec: the counters `{count, min, max, total}` a callback
record carries for statistics. The dispatch code outside `config.c` updates
them; the refresher only reads them, so they are kept beside the heap, by
address. -/
structure Counters where
  count : Nat
  min : Nat
  max : Nat
  total : Nat
  deriving DecidableEq, Repr

/-- Modelled from the spec: `db_add (path, value, …)` sets the value at `path`;
the path tree is a map from paths to values, its timestamps left out. -/
def dbAdd (path value : String) (db : String → Option String) : String → Option String :=
  Function.update db path (some value)

/-- `q` lies in the subtree rooted at `path`. -/
def underPath (path q : String) : Bool := q == path || (path ++ "/").data.isPrefixOf q.data

/-- Modelled from the spec: `db_prune (path)` removes the subtree rooted at `path`. -/
def dbPrune (path : String) (db : String → Option String) : String → Option String :=
  fun q => if underPath path q then none else db q

/-- Modelled from the spec: `cb_foreach (list, fn, data)` calls `fn` on every
record linked into `list`. `order` lists their addresses in the order the tree
walk of `callbacks.c` visits them. -/
def cbForeach {β : Type} (s : Registry) (order : List Nat) (fn : Nat → CbInfo → β → β)
    (acc : β) : β :=
  order.foldl (fun acc a => match s.heap a with | some r => fn a r acc | none => acc) acc

/-- `order` visits the records linked into `list`: the active records of the
tree, and only those. -/
def Registry.Enumerates (s : Registry) (list : CallbackList) (order : List Nat) : Prop :=
  ∀ a, a ∈ order ↔ ∃ r, s.heap a = some r ∧ r.active ∧ r.list = list

/-- The records linked into `list` by address: one order `cb_foreach` may take. -/
def Registry.members (s : Registry) (list : CallbackList) : List Nat :=
  (List.range s.next).filter fun a =>
    match s.heap a with
    | some r => r.active && r.list == list
    | none => false

theorem Inv.enumerates_members (hI : Inv s) (list : CallbackList) :
    s.Enumerates list (s.members list) := by
  intro a
  simp only [Registry.members, List.mem_filter, List.mem_range]
  constructor
  · rintro ⟨-, h⟩
    split at h
    · rename_i r hr
      simp only [Bool.and_eq_true, beq_iff_eq] at h
      exact ⟨r, hr, h⟩
    · cases h
  · rintro ⟨r, hr, hact, rfl⟩
    exact ⟨hI.lt_next hr, by simp [hr, hact]⟩

/-- `APTERYX_STATISTICS "/%s/%s"`: where `_statistics_fn` writes. -/
def statisticsPath (name guid : String) : String := apteryxStatistics ++ "/" ++ name ++ "/" ++ guid

/-- `"%u,%u,%u,%u"` of the count, the minimum, the average and the maximum; the
average stays 0 while the count is. -/
def statisticsValue (c : Counters) : String :=
  let avg := if c.count ≠ 0 then c.total / c.count else 0
  toString c.count ++ "," ++ toString c.min ++ "," ++ toString avg ++ "," ++ toString c.max

/-- `_statistics_fn (cb, name)`, `cnt` giving each record's counters. -/
def statisticsFn (cnt : Nat → Counters) (name : String) (a : Nat) (r : CbInfo)
    (db : String → Option String) : String → Option String :=
  dbAdd (statisticsPath name r.guid) (statisticsValue (cnt a)) db

/-- `handle_statistics_refresh`: prune the statistics tree, write an entry for
every callback of every tree, and ask to run again in a second. -/
def handleStatisticsRefresh (s : Registry) (cnt : Nat → Counters)
    (order : CallbackList → List Nat) (db : String → Option String) :
    (String → Option String) × UInt64 :=
  let db := dbPrune apteryxStatistics db
  let db := cbForeach s (order .watch) (statisticsFn cnt "watchers") db
  let db := cbForeach s (order .validation) (statisticsFn cnt "validators") db
  let db := cbForeach s (order .refresh) (statisticsFn cnt "refreshers") db
  let db := cbForeach s (order .provide) (statisticsFn cnt "providers") db
  let db := cbForeach s (order .index) (statisticsFn cnt "indexers") db
  let db := cbForeach s (order .proxy) (statisticsFn cnt "proxies") db
  (db, 1 * 1000 * 1000)

/-! ## The refresher writes one entry per callback -/

/-- The name `handle_statistics_refresh` passes with each tree. -/
def CallbackList.statisticsName : CallbackList → String
  | .watch => "watchers"
  | .validation => "validators"
  | .refresh => "refreshers"
  | .provide => "providers"
  | .index => "indexers"
  | .proxy => "proxies"

theorem CallbackList.statisticsName_injective : Function.Injective CallbackList.statisticsName := by
  intro l l'; cases l <;> cases l' <;> decide

theorem CallbackList.slash_not_mem_statisticsName (l : CallbackList) :
    '/' ∉ l.statisticsName.data := by
  cases l <;> decide

/-- The writes of the refresher, tree after tree. -/
def statisticsWrites (s : Registry) (cnt : Nat → Counters) (order : CallbackList → List Nat) :
    List (String × String) :=
  [CallbackList.watch, .validation, .refresh, .provide, .index, .proxy].flatMap fun l =>
    (order l).filterMap fun a =>
      (s.heap a).map fun r => (statisticsPath l.statisticsName r.guid, statisticsValue (cnt a))

/-- Add every pair of `ws` to the tree, in order. -/
def dbAddAll (ws : List (String × String)) (db : String → Option String) : String → Option String :=
  ws.foldl (fun db w => dbAdd w.1 w.2 db) db

theorem cbForeach_statisticsFn (s : Registry) (cnt : Nat → Counters) (name : String)
    (order : List Nat) (db : String → Option String) :
    cbForeach s order (statisticsFn cnt name) db =
      dbAddAll (order.filterMap fun a =>
        (s.heap a).map fun r => (statisticsPath name r.guid, statisticsValue (cnt a))) db := by
  induction order generalizing db with
  | nil => rfl
  | cons a order ih =>
    rcases h : s.heap a with _ | r <;>
      simp [cbForeach, dbAddAll, h, statisticsFn] at ih ⊢ <;> exact ih _

theorem handleStatisticsRefresh_fst (s : Registry) (cnt : Nat → Counters)
    (order : CallbackList → List Nat) (db : String → Option String) :
    (handleStatisticsRefresh s cnt order db).1 =
      dbAddAll (statisticsWrites s cnt order) (dbPrune apteryxStatistics db) := by
  simp [handleStatisticsRefresh, statisticsWrites, cbForeach_statisticsFn, dbAddAll,
    List.foldl_append, CallbackList.statisticsName]

theorem dbAddAll_of_forall_ne {ws : List (String × String)} {q : String}
    (h : ∀ w ∈ ws, w.1 ≠ q) (db : String → Option String) : dbAddAll ws db q = db q := by
  induction ws generalizing db with
  | nil => rfl
  | cons w ws ih =>
    simp only [dbAddAll, List.foldl_cons] at ih ⊢
    rw [ih (fun w' hw' => h w' (List.mem_cons_of_mem _ hw')), dbAdd,
      Function.update_noteq (h w (List.mem_cons_self _ _)).symm]

theorem dbAddAll_of_mem {ws : List (String × String)} {w : String × String} (hw : w ∈ ws)
    (huniq : ∀ w' ∈ ws, w'.1 = w.1 → w'.2 = w.2) (db : String → Option String) :
    dbAddAll ws db w.1 = some w.2 := by
  induction ws generalizing db with
  | nil => cases hw
  | cons x ws ih =>
    simp only [dbAddAll, List.foldl_cons] at ih ⊢
    by_cases hin : w ∈ ws
    · exact ih hin (fun w' hw' => huniq w' (List.mem_cons_of_mem _ hw')) _
    · have hx : x = w := (List.mem_cons.mp hw).resolve_right hin |>.symm
      subst hx
      rw [show ws.foldl _ _ = dbAddAll ws _ from rfl, dbAddAll_of_forall_ne, dbAdd,
        Function.update_same]
      intro w' hw' he
      exact hin (Prod.ext he (huniq w' (List.mem_cons_of_mem _ hw') he) ▸ hw')

theorem dbAddAll_eq_some {ws : List (String × String)} {q v : String}
    {db : String → Option String} (h : dbAddAll ws db q = some v) : db q = some v ∨ (q, v) ∈ ws := by
  induction ws generalizing db with
  | nil => exact .inl h
  | cons w ws ih =>
    rcases ih h with h' | h'
    · simp only [dbAdd, Function.update_apply] at h'
      split at h'
      · rename_i he; cases h'; subst he; exact .inr (List.mem_cons_self _ _)
      · exact .inl h'
    · exact .inr (List.mem_cons_of_mem _ h')

theorem mem_statisticsWrites {cnt : Nat → Counters} {order : CallbackList → List Nat}
    {w : String × String} :
    w ∈ statisticsWrites s cnt order ↔ ∃ l a r, a ∈ order l ∧ s.heap a = some r ∧
      w = (statisticsPath l.statisticsName r.guid, statisticsValue (cnt a)) := by
  simp only [statisticsWrites, List.mem_flatMap, List.mem_filterMap, Option.map_eq_some']
  constructor
  · rintro ⟨l, -, a, ha, r, hr, rfl⟩
    exact ⟨l, a, r, ha, hr, rfl⟩
  · rintro ⟨l, a, r, ha, hr, rfl⟩
    exact ⟨l, by cases l <;> simp, a, ha, r, hr, rfl⟩

theorem underPath_statisticsPath (name guid : String) :
    underPath apteryxStatistics (statisticsPath name guid) = true := by
  simp [underPath, statisticsPath, String.append_assoc]

/-- Two lists that agree once split at their first `c` agree on both sides. -/
theorem eq_of_append_cons_eq {n n' g g' : List Char} {c : Char} (hn : c ∉ n) (hn' : c ∉ n')
    (h : n ++ c :: g = n' ++ c :: g') : n = n' ∧ g = g' := by
  induction n generalizing n' with
  | nil =>
    cases n' with
    | nil => exact ⟨rfl, (List.cons.inj h).2⟩
    | cons x n' => cases (List.cons.inj h).1; simp at hn'
  | cons x n ih =>
    cases n' with
    | nil => cases (List.cons.inj h).1; simp at hn
    | cons y n' =>
      simp only [List.cons_append, List.cons.injEq] at h
      obtain ⟨rfl, h⟩ := h
      have := ih (fun hm => hn (List.mem_cons_of_mem _ hm)) (fun hm => hn' (List.mem_cons_of_mem _ hm)) h
      exact ⟨by rw [this.1], this.2⟩

theorem statisticsPath_inj {l l' : CallbackList} {g g' : String}
    (h : statisticsPath l.statisticsName g = statisticsPath l'.statisticsName g') : l = l' ∧ g = g' := by
  have hd := congrArg String.data h
  simp only [statisticsPath, String.data_append, List.append_assoc, List.append_cancel_left_eq,
    show "/".data = ['/'] from rfl, List.singleton_append, List.cons_append, List.cons.injEq,
    true_and] at hd
  obtain ⟨hn, hg⟩ := eq_of_append_cons_eq (l.slash_not_mem_statisticsName)
    (l'.slash_not_mem_statisticsName) hd
  exact ⟨CallbackList.statisticsName_injective (String.ext hn), String.ext hg⟩

/-- After a refresh the statistics tree mirrors the registry: every active
record has its counters at `<tree>/<guid>`, nothing else is left under
`/apteryx/statistics`, and the rest of the tree is untouched. -/
theorem statistics_refresh_mirrors_registry (hs : Reachable s) (cnt : Nat → Counters)
    (order : CallbackList → List Nat) (horder : ∀ l, s.Enumerates l (order l))
    (db : String → Option String) :
    (∀ q, underPath apteryxStatistics q = false →
      (handleStatisticsRefresh s cnt order db).1 q = db q) ∧
    (∀ a r, s.heap a = some r → r.active →
      (handleStatisticsRefresh s cnt order db).1 (statisticsPath r.list.statisticsName r.guid) =
        some (statisticsValue (cnt a))) ∧
    (∀ q v, underPath apteryxStatistics q = true →
      (handleStatisticsRefresh s cnt order db).1 q = some v →
      ∃ a r, s.heap a = some r ∧ r.active ∧ q = statisticsPath r.list.statisticsName r.guid ∧
        v = statisticsValue (cnt a)) := by
  simp only [handleStatisticsRefresh_fst]
  -- each write of the refresher is the entry of one active record
  have hw : ∀ w ∈ statisticsWrites s cnt order, ∃ a r, s.heap a = some r ∧ r.active ∧
      w = (statisticsPath r.list.statisticsName r.guid, statisticsValue (cnt a)) := by
    intro w hw
    obtain ⟨l, a, r, ha, hr, rfl⟩ := mem_statisticsWrites.mp hw
    obtain ⟨r', hr', hact, rfl⟩ := (horder l a).mp ha
    rw [hr] at hr'; cases hr'
    exact ⟨a, r, hr, hact, rfl⟩
  refine ⟨fun q hq => ?_, fun a r hr hact => ?_, fun q v hq h => ?_⟩
  · rw [dbAddAll_of_forall_ne, dbPrune, hq, if_neg Bool.false_ne_true]
    intro w hw' he
    obtain ⟨a, r, -, -, rfl⟩ := hw w hw'
    rw [← he, underPath_statisticsPath] at hq
    cases hq
  · refine dbAddAll_of_mem (mem_statisticsWrites.mpr ⟨r.list, a, r, (horder _ a).mpr ⟨r, hr, hact, rfl⟩, hr, rfl⟩)
      (fun w hw' he => ?_) _
    obtain ⟨a', r', hr', hact', rfl⟩ := hw w hw'
    obtain ⟨hl, hg⟩ := statisticsPath_inj he
    cases hs.active_keyed hr' hr hact' hact hl hg
    rfl
  · rcases dbAddAll_eq_some h with h' | h'
    · simp [dbPrune, hq] at h'
    · obtain ⟨a, r, hr, hact, he⟩ := hw _ h'
      obtain ⟨rfl, rfl⟩ := Prod.mk.inj he
      exact ⟨a, r, hr, hact, rfl, rfl⟩

theorem statistics_refresh_mirrors_registry_initial :
    ∃ s, Reachable s ∧ (∀ l, s.Enumerates l (s.members l)) ∧
      (∀ q, underPath apteryxStatistics q = false →
        (handleStatisticsRefresh s (fun _ => ⟨1, 2, 3, 4⟩) s.members fun _ => none).1 q = none) ∧
      (∀ a r, s.heap a = some r → r.active →
        (handleStatisticsRefresh s (fun _ => ⟨1, 2, 3, 4⟩) s.members fun _ => none).1
          (statisticsPath r.list.statisticsName r.guid) = some "1,2,4,3") ∧
      (∀ q v, underPath apteryxStatistics q = true →
        (handleStatisticsRefresh s (fun _ => ⟨1, 2, 3, 4⟩) s.members fun _ => none).1 q = some v →
        ∃ a r, s.heap a = some r ∧ r.active ∧ q = statisticsPath r.list.statisticsName r.guid ∧
          v = "1,2,4,3") := by
  obtain ⟨s, -, hs⟩ := reachable_configInit 0 fun _ => 0
  have hm : ∀ l, s.Enumerates l (s.members l) := hs.inv.enumerates_members
  exact ⟨s, hs, hm, statistics_refresh_mirrors_registry hs _ _ hm _⟩

/-! ## The counters indexer and provider -/

/-- `handle_counters_index`: a path under `APTERYX_COUNTERS` for each field of
`X_FIELDS`, in their order. `fields` stands for the names of `X_FIELDS`, which
`internal.h` defines outside these sources. -/
def handleCountersIndex (fields : List String) : List String :=
  fields.map fun name => apteryxCounters ++ "/" ++ name

/-- `handle_counters_get`: from the last `/` of the path on, the first field
whose `"/" name` it is, its `GET_COUNTER` printed with `%d`; `NULL` when no
field matches. `counters` pairs each name of `X_FIELDS` with the value its
counter reads. A path without `/` makes `strcmp` read `NULL`. -/
def handleCountersGet (counters : List (String × Int)) (path : String) :
    Except Fault (Option String) :=
  match strrchr path.toList '/' with
  | none => .error .nullDeref
  | some i =>
    let counter := path.drop i
    .ok (counters.findSome? fun c => if "/" ++ c.1 = counter then some (toString c.2) else none)

theorem handleCountersGet_counters_path (counters : List (String × Int)) {name : String}
    (hn : '/' ∉ name.data) :
    handleCountersGet counters (apteryxCounters ++ "/" ++ name) =
      .ok (counters.findSome? fun c => if c.1 = name then some (toString c.2) else none) := by
  have hl : (apteryxCounters ++ "/" ++ name).toList = apteryxCounters.data ++ '/' :: name.data := by
    simp [String.toList, String.data_append]
  have hc : ∀ n : String, "/" ++ n = "/" ++ name ↔ n = name := fun n => by
    simp [String.ext_iff, String.data_append]
  simp only [handleCountersGet, hl, strrchr_append_of_not_mem hn]
  rw [show apteryxCounters.data.length = apteryxCounters.length from rfl, String.append_assoc,
    drop_append_length]
  simp only [hc]

/-- The first field of a name is the one `handle_counters_get` finds. -/
theorem findSome?_field {counters : List (String × Int)} (hn : (counters.map Prod.fst).Nodup)
    {c : String × Int} (hc : c ∈ counters) :
    counters.findSome? (fun d => if d.1 = c.1 then some (toString d.2) else none) =
      some (toString c.2) := by
  induction counters with
  | nil => cases hc
  | cons d ds ih =>
    simp only [List.map_cons, List.nodup_cons, List.mem_map] at hn
    rcases List.mem_cons.mp hc with rfl | hc'
    · simp
    · have hd : d.1 ≠ c.1 := fun hd => hn.1 ⟨c, hc', hd.symm⟩
      simp only [List.findSome?_cons, hd, if_false]
      exact ih hn.2 hc'

/-- The counters provider answers every path the counters indexer lists with
that counter's value, and no other path one level under `/apteryx/counters`. -/
theorem counters_index_get (counters : List (String × Int)) (hn : (counters.map Prod.fst).Nodup)
    (hs : ∀ c ∈ counters, '/' ∉ c.1.data) :
    (∀ p ∈ handleCountersIndex (counters.map Prod.fst), ∃ c ∈ counters,
      p = apteryxCounters ++ "/" ++ c.1 ∧ handleCountersGet counters p = .ok (some (toString c.2))) ∧
    (∀ name, '/' ∉ name.data →
      apteryxCounters ++ "/" ++ name ∉ handleCountersIndex (counters.map Prod.fst) →
      handleCountersGet counters (apteryxCounters ++ "/" ++ name) = .ok none) := by
  refine ⟨fun p hp => ?_, fun name hname hnot => ?_⟩
  · obtain ⟨c, hc, rfl⟩ : ∃ c ∈ counters, apteryxCounters ++ "/" ++ c.1 = p := by
      simpa [handleCountersIndex] using hp
    exact ⟨c, hc, rfl, by rw [handleCountersGet_counters_path _ (hs c hc), findSome?_field hn hc]⟩
  · rw [handleCountersGet_counters_path _ hname]
    congr 1
    simp only [List.findSome?_eq_none_iff, ite_eq_right_iff, reduceCtorEq, imp_false]
    rintro c hc rfl
    exact hnot (List.mem_map_of_mem _ (List.mem_map_of_mem _ hc))

theorem counters_index_get_two :
    (∀ p ∈ handleCountersIndex ["set", "get"], ∃ c ∈ [("set", (3 : Int)), ("get", -1)],
      p = apteryxCounters ++ "/" ++ c.1 ∧
        handleCountersGet [("set", 3), ("get", -1)] p = .ok (some (toString c.2))) ∧
    (∀ name, '/' ∉ name.data → apteryxCounters ++ "/" ++ name ∉ handleCountersIndex ["set", "get"] →
      handleCountersGet [("set", 3), ("get", -1)] (apteryxCounters ++ "/" ++ name) = .ok none) :=
  counters_index_get [("set", 3), ("get", -1)] (by decide) (by decide)

end Apteryx
