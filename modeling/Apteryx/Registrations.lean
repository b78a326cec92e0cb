import Apteryx.Invariant

/-!
# Apteryx.Registrations — the registry as a map from GUIDs to registrations

What the self-configuration surface is for: each GUID names at most one
registration, a tree with a pattern (and for proxies a URI); writing a
pattern under a GUID registers it, writing `NULL` withdraws it, and a
malformed write changes nothing. `Write.intended` says this on the abstract
map, `Registry.view` reads the map off the concrete registry through
`guid_to_callback`, and `Write.run_view` shows that every completed write
moves the view as `Write.intended` says — except a `NULL` write under
`/apteryx/proxies/`, which `handle_proxies_set` turns into a lookup and
leaves the registration in place.

`Inv.active_iff` ties the view to the trees: the active records with a GUID
`update_callback` accepts are exactly the table's entries, so a GUID has at
most one active record, across all six trees.
-/

namespace Apteryx

open Registry

/-- A registration as the rest of apteryx sees it. -/
structure Registration where
  list : CallbackList
  path : String
  uri : Option String
  id : UInt64
  ref : UInt64
  deriving DecidableEq, Repr

/-- The registration a record carries. -/
def CbInfo.registration (r : CbInfo) : Registration := ⟨r.list, r.path, r.uri, r.id, r.ref⟩

/-- The registrations a registry holds, by GUID. -/
def Registry.view (s : Registry) (g : String) : Option Registration :=
  (s.guidToCallback g).bind fun a => (s.heap a).map CbInfo.registration

/-- The intended effect of a write on the registrations. -/
def Write.intended (w : Write) (m : String → Option Registration) :
    String → Option Registration :=
  let (n, pid, callback, _) := sscanfGuid w.guid
  if n ≠ 3 then m
  else
    match w.list, w.value with
    | _, none => Function.update m w.guid none
    | .proxy, some v =>
      match proxyParts v with
      | some (u, p) =>
        if ProxyUrl v then Function.update m w.guid (some ⟨.proxy, p, some u, pid, callback⟩) else m
      | none => m
    | list, some v => Function.update m w.guid (some ⟨list, v, none, pid, callback⟩)

variable {s s' : Registry}

theorem Inv.view_unregister (hI : Inv s) (g : String) :
    (s.unregister g).view = Function.update s.view g none := by
  funext g'
  by_cases hg : g' = g
  · subst hg; simp [Registry.view]
  · rcases ht : s.guidToCallback g' with _ | a
    · simp [Registry.view, Function.update_noteq hg, ht]
    · -- the entry of `g'` is not the one `unregister g` retires
      have hne : s.guidToCallback g ≠ some a := by
        intro h'
        obtain ⟨-, r, hr, -, hrg⟩ := hI.table g' a ht
        obtain ⟨-, r', hr', -, hrg'⟩ := hI.table g a h'
        rw [hr] at hr'; cases hr'; exact hg (hrg.symm.trans hrg')
      simp [Registry.view, Function.update_noteq hg, ht, unregister_heap, hne]

theorem Inv.view_install (hI : Inv s) {g : String} (ht : s.guidToCallback g = none)
    (list : CallbackList) (path : String) (uri : Option String) (id ref : UInt64) :
    (s.install list g path uri id ref).view =
      Function.update s.view g (some ⟨list, path, uri, id, ref⟩) := by
  funext g'
  by_cases hg : g' = g
  · subst hg; simp [Registry.view, CbInfo.registration]
  · rcases ht' : s.guidToCallback g' with _ | a
    · simp [Registry.view, Function.update_noteq hg, ht']
    · obtain ⟨-, r, hr, -⟩ := hI.table g' a ht'
      simp [Registry.view, Function.update_noteq hg, ht', Function.update_apply,
        Nat.ne_of_lt (hI.lt_next hr)]

theorem Inv.view_register (hI : Inv s) (list : CallbackList) (g : String) (value : Option String) :
    (s.register list g value).view =
      let (n, pid, callback, _) := sscanfGuid g
      if n ≠ 3 then s.view
      else match value with
        | some v => Function.update s.view g (some ⟨list, v, none, pid, callback⟩)
        | none => Function.update s.view g none := by
  unfold Registry.register
  by_cases ha : GuidAccepted g
  · obtain ⟨pid, cb, _, hg⟩ := guidAccepted_iff.mp ha
    have ht : (s.unregister g).guidToCallback g = none := by simp
    cases value <;> simp [hg, hI.view_unregister, (hI.unregister g).view_install ht]
  · have : (sscanfGuid g).1 ≠ 3 := ha
    simp [this]

/-- The refinement: every completed write from a reachable registry moves the
view as `Write.intended` says, except a `NULL` write to a proxy GUID, which
leaves the whole registry as it was. -/
theorem Write.run_view (hs : Reachable s) {w : Write} {b : Bool} (h : w.run s = .ok (b, s')) :
    s'.view = w.intended s.view ∨ (w.list = .proxy ∧ w.value = none ∧ s' = s) := by
  have hI := hs.inv
  rw [Write.run_eq w (hI.entryLive _)] at h
  obtain ⟨list, g, value⟩ := w
  cases list
  case proxy =>
    cases value with
    | none => cases h; exact .inr ⟨rfl, rfl, rfl⟩
    | some v =>
      left
      rcases Write.effect_proxy_cases g v s with
        ⟨hv, he⟩ | ⟨-, -, he⟩ | ⟨u, p, pid, cb, _, hv, hp, hg, he⟩ <;> rw [he] at h <;> cases h
      · simp only [Write.intended]
        split_ifs <;> try rfl
        split <;> simp [hv]
      · have ht : (s.unregister g).guidToCallback g = none := by simp
        rw [(hI.unregister g).view_install ht, hI.view_unregister]
        simp [Write.intended, hg, hp, hv]
  all_goals
    left
    simp [Write.effect] at h
    rw [← h.2, hI.view_register]
    cases value <;> rfl

/-- The active records with a GUID `update_callback` accepts are exactly the
table's entries. -/
theorem Inv.active_iff (hI : Inv s) {g : String} (hg : GuidAccepted g) (a : Nat) :
    (∃ r, s.heap a = some r ∧ r.active ∧ r.guid = g) ↔ s.guidToCallback g = some a := by
  constructor
  · rintro ⟨r, hr, hact, rfl⟩
    by_cases hb : a < builtinCount
    · obtain ⟨r', hr', -, hrej⟩ := hI.builtin a hb
      rw [hr] at hr'; cases hr'; exact absurd hg hrej
    · exact hI.active_entry a r hr hact (Nat.le_of_not_lt hb)
  · intro ht
    obtain ⟨-, r, hr, hact, hrg⟩ := hI.table g a ht
    exact ⟨r, hr, hact, hrg⟩

theorem Inv.view_eq_some (hI : Inv s) {g : String} {reg : Registration}
    (h : s.view g = some reg) :
    ∃ a r, s.guidToCallback g = some a ∧ s.heap a = some r ∧ r.active ∧ r.guid = g ∧
      r.registration = reg := by
  simp only [Registry.view, Option.bind_eq_some, Option.map_eq_some'] at h
  obtain ⟨a, ht, r, hr, rfl⟩ := h
  obtain ⟨-, r', hr', hact, hrg⟩ := hI.table g a ht
  rw [hr] at hr'; cases hr'
  exact ⟨a, r, ht, hr, hact, hrg, rfl⟩

theorem Inv.view_eq_none (hI : Inv s) {g : String} (h : s.view g = none) :
    s.guidToCallback g = none := by
  rcases ht : s.guidToCallback g with _ | a
  · rfl
  · obtain ⟨-, r, hr, -⟩ := hI.table g a ht
    simp [Registry.view, ht, hr] at h

/-! ## One registration per GUID -/

/-- A completed write for a GUID `update_callback` accepts leaves that GUID
with exactly one active record in the write's tree, the table's entry, when
a value the handler accepts was written (with that value as pattern outside
the proxies); after a `NULL` write to one of the five other kinds, the GUID
has neither an entry nor an active record in the tree. -/
theorem write_registration (hs : Reachable s) {w : Write} {b : Bool} (hg : GuidAccepted w.guid)
    (h : w.run s = .ok (b, s')) :
    (∀ v, w.value = some v → (w.list = .proxy → ProxyUrl v) →
      ∃ a r, s'.guidToCallback w.guid = some a ∧ s'.heap a = some r ∧ r.active ∧
        r.list = w.list ∧ (w.list ≠ .proxy → r.path = v) ∧
        ∀ a' r', s'.heap a' = some r' → r'.active → r'.list = w.list → r'.guid = w.guid → a' = a) ∧
    (w.value = none → w.list ≠ .proxy →
      s'.guidToCallback w.guid = none ∧
        ∀ a r, s'.heap a = some r → r.active → r.list = w.list → r.guid ≠ w.guid) := by
  have hI' := (hs.step w h).inv
  obtain ⟨pid, cb, _, hpid⟩ := guidAccepted_iff.mp hg
  obtain ⟨list, g, value⟩ := w
  simp only at hg hpid ⊢
  constructor
  · rintro v rfl hurl
    have hview := Write.run_view hs h
    simp only [reduceCtorEq, and_false, false_and, or_false] at hview
    -- the view now maps `g` to the registration the write made
    have : ∃ reg, s'.view g = some reg ∧ reg.list = list ∧ (list ≠ .proxy → reg.path = v) := by
      cases list
      case proxy =>
        obtain ⟨u, p, hp⟩ := proxyParts_of_proxyUrl (hurl rfl)
        exact ⟨⟨.proxy, p, some u, pid, cb⟩, by simp [hview, Write.intended, hpid, hp, hurl rfl],
          rfl, by simp⟩
      all_goals exact ⟨⟨_, v, none, pid, cb⟩, by simp [hview, Write.intended, hpid], rfl, fun _ => rfl⟩
    obtain ⟨reg, hv, hl, hp⟩ := this
    obtain ⟨a, r, ht, hr, hact, -, rfl⟩ := hI'.view_eq_some hv
    refine ⟨a, r, ht, hr, hact, hl, hp, fun a' r' hr' hact' _ hg' => ?_⟩
    have := (hI'.active_iff hg a').mp ⟨r', hr', hact', hg'⟩
    rw [ht] at this; exact (Option.some.inj this).symm
  · rintro rfl hl
    have hview := Write.run_view hs h
    simp only [hl, false_and, or_false] at hview
    have hnone : s'.view g = none := by simp [hview, Write.intended, hpid]
    have ht := hI'.view_eq_none hnone
    refine ⟨ht, fun a r hr hact _ hrg => ?_⟩
    have := (hI'.active_iff hg a).mp ⟨r, hr, hact, hrg⟩
    rw [ht] at this; cases this

theorem write_registration_initial :
    ∃ s s' a, Reachable s ∧ (Write.mk .watch "1-2-3" (some "/a")).run s = .ok (true, s') ∧
      s'.guidToCallback "1-2-3" = some a := by
  obtain ⟨s, -, hs⟩ := reachable_configInit 0 fun _ => 0
  have h : (Write.mk .watch "1-2-3" (some "/a")).run s = .ok (true, _) :=
    (Write.run_eq _ (hs.inv.entryLive _)).trans rfl
  obtain ⟨a, -, ha, -⟩ := (write_registration hs (by decide) h).1 "/a" rfl (by simp)
  exact ⟨s, _, a, hs, h, ha⟩

/-- The proxy half of that promise fails: after registering a proxy and
writing `NULL` to the same path, the record is still active and still the
table's entry. -/
theorem proxy_null_write_keeps_registration :
    (do
      let s₀ ← configInit 0 fun _ => 0
      let (_, s₁) ← (Write.mk .proxy "1-2-3" (some "tcp://127.0.0.1:9999:/test/remote/*")).run s₀
      let (_, s₂) ← (Write.mk .proxy "1-2-3" none).run s₁
      pure (s₂.guidToCallback "1-2-3", (s₂.heap 11).map fun r => (r.list, r.active))) =
    Except.ok (some 11, some (.proxy, true)) := by
  rfl

/-! ## What a write leaves alone -/

theorem Inv.unregister_heap_of_some (hI : Inv s) (g : String) {a : Nat} {r : CbInfo}
    (hr : s.heap a = some r) :
    (s.unregister g).heap a = some r ∨
      (s.guidToCallback g = some a ∧ r.guid = g ∧ builtinCount ≤ a ∧
        (s.unregister g).heap a = some r.retired) := by
  rw [unregister_heap]
  split
  · rename_i ht
    obtain ⟨hle, r', hr', -, hrg⟩ := hI.table g a ht
    rw [hr] at hr'; cases hr'
    exact .inr ⟨ht, hrg, hle, by simp [hr]⟩
  · exact .inl hr

/-- A completed write touches only the table's entry for its GUID, whatever
tree that entry is linked into, and the fresh record it installs. -/
theorem Inv.run_frame (hI : Inv s) {w : Write} {b : Bool} (h : w.run s = .ok (b, s')) :
    (∀ a r, s.heap a = some r → (r.guid ≠ w.guid ∨ a < builtinCount) → s'.heap a = some r) ∧
    (∀ g, g ≠ w.guid → s'.guidToCallback g = s.guidToCallback g) ∧
    (∀ a r, s.heap a = some r → s'.heap a ≠ some r →
      s.guidToCallback w.guid = some a ∧ s'.heap a = some r.retired ∧
        s'.guidToCallback w.guid ≠ some a) := by
  -- the registry after `unregister`: one retired entry at most
  have hunreg : ∀ a r, s.heap a = some r → (s.unregister w.guid).heap a ≠ some r →
      s.guidToCallback w.guid = some a ∧ r.guid = w.guid ∧ builtinCount ≤ a ∧
        (s.unregister w.guid).heap a = some r.retired := fun a r hr hne =>
    (hI.unregister_heap_of_some w.guid hr).resolve_left hne
  rcases Write.run_outcome hI h with rfl | ⟨-, rfl⟩ | ⟨-, p, uri, id, ref, rfl⟩
  · exact ⟨fun a r hr _ => hr, fun _ _ => rfl, fun a r hr hne => absurd hr hne⟩
  · refine ⟨fun a r hr hor => ?_, fun g hg => by simp [Function.update_noteq hg], fun a r hr hne => ?_⟩
    · by_contra hne
      obtain ⟨-, hrg, hle, -⟩ := hunreg a r hr hne
      exact hor.elim (· hrg) (by omega)
    · obtain ⟨ht, -, -, hret⟩ := hunreg a r hr hne
      exact ⟨ht, hret, by simp⟩
  · have hlt := fun a r (hr : s.heap a = some r) => Nat.ne_of_lt (hI.lt_next hr)
    refine ⟨fun a r hr hor => ?_, fun g hg => by simp [Function.update_noteq hg], fun a r hr hne => ?_⟩
    · simp only [install_heap, Function.update_apply, unregister_next, hlt a r hr, if_false]
      by_contra hne
      obtain ⟨-, hrg, hle, -⟩ := hunreg a r hr hne
      exact hor.elim (· hrg) (by omega)
    · simp only [install_heap, Function.update_apply, unregister_next, hlt a r hr, if_false] at hne ⊢
      obtain ⟨ht, -, -, hret⟩ := hunreg a r hr hne
      exact ⟨ht, hret, by simp [Ne.symm (hlt a r hr)]⟩

/-- A completed write under `/apteryx/<kind>/<g>` leaves every record with
another GUID and every record of `config_init` as it was, and every other
GUID's table entry; the only record it may change is the table's entry for
`g`, whichever tree that entry is linked into, and a change retires it. -/
theorem write_frame (hs : Reachable s) {w : Write} {b : Bool} (h : w.run s = .ok (b, s')) :
    (∀ a r, s.heap a = some r → (r.guid ≠ w.guid ∨ a < builtinCount) → s'.heap a = some r) ∧
    (∀ g, g ≠ w.guid → s'.guidToCallback g = s.guidToCallback g) ∧
    (∀ a r, s.heap a = some r → s'.heap a ≠ some r →
      s.guidToCallback w.guid = some a ∧ s'.heap a = some r.retired ∧
        s'.guidToCallback w.guid ≠ some a) :=
  hs.inv.run_frame h

theorem write_frame_initial :
    ∃ s s', Reachable s ∧ (Write.mk .watch "1-2-3" (some "/a")).run s = .ok (true, s') ∧
      ∀ g, g ≠ "1-2-3" → s'.guidToCallback g = s.guidToCallback g := by
  obtain ⟨s, -, hs⟩ := reachable_configInit 0 fun _ => 0
  have h : (Write.mk .watch "1-2-3" (some "/a")).run s = .ok (true, _) :=
    (Write.run_eq _ (hs.inv.entryLive _)).trans rfl
  exact ⟨s, _, hs, h, (write_frame hs h).2.1⟩

/-- The table is keyed by GUID alone: a validator written under the GUID of
a watcher retires the watcher. -/
theorem validator_write_retires_watcher :
    (do
      let s₀ ← configInit 0 fun _ => 0
      let (_, s₁) ← (Write.mk .watch "1-2-3" (some "/a")).run s₀
      let (_, s₂) ← (Write.mk .validation "1-2-3" (some "/b")).run s₁
      pure ((s₁.heap 11).map (fun r => (r.list, r.guid, r.active)), (s₂.heap 11).map (·.active))) =
    Except.ok (some (.watch, "1-2-3", true), some false) := by
  rfl

/-! ## Registrations are keyed by the GUID string -/

/-- Two writes address one registration exactly when their GUID strings are
equal: equal strings parse to the same triple, and a write for `g₁` leaves
the table entry and the records of any other string `g₂` as they were, even
when `g₂` parses to the same triple. -/
theorem registration_key_is_guid_string (hs : Reachable s) (g₁ g₂ : String) :
    (g₁ = g₂ → sscanfGuid g₁ = sscanfGuid g₂) ∧
    (g₁ ≠ g₂ → ∀ (list : CallbackList) (value : Option String) (b : Bool) (s' : Registry),
      (Write.mk list g₁ value).run s = .ok (b, s') →
      s'.guidToCallback g₂ = s.guidToCallback g₂ ∧
        ∀ a r, s.heap a = some r → r.guid = g₂ → s'.heap a = some r) := by
  refine ⟨congrArg sscanfGuid, fun hne list value b s' h => ?_⟩
  obtain ⟨hrec, htab, -⟩ := hs.inv.run_frame h
  exact ⟨htab g₂ (Ne.symm hne), fun a r hr hrg => hrec a r hr (.inl (hrg ▸ Ne.symm hne))⟩

theorem registration_key_is_guid_string_initial :
    ∃ s s', Reachable s ∧ (Write.mk .watch "1-2-3" (some "/a")).run s = .ok (true, s') ∧
      s'.guidToCallback "01-2-3" = s.guidToCallback "01-2-3" := by
  obtain ⟨s, -, hs⟩ := reachable_configInit 0 fun _ => 0
  have h : (Write.mk .watch "1-2-3" (some "/a")).run s = .ok (true, _) :=
    (Write.run_eq _ (hs.inv.entryLive _)).trans rfl
  exact ⟨s, _, hs, h,
    ((registration_key_is_guid_string hs "1-2-3" "01-2-3").2 (by decide) _ _ _ _ h).1⟩

/-- `1-2-3` and `01-2-3` parse to the same triple, yet registering both
leaves two active registrations. -/
theorem equal_triples_two_registrations :
    sscanfGuid "1-2-3" = sscanfGuid "01-2-3" ∧
    (do
      let s₀ ← configInit 0 fun _ => 0
      let (_, s₁) ← (Write.mk .watch "1-2-3" (some "/a")).run s₀
      let (_, s₂) ← (Write.mk .watch "01-2-3" (some "/a")).run s₁
      pure (s₂.guidToCallback "1-2-3", s₂.guidToCallback "01-2-3",
        (s₂.heap 11).map (·.active), (s₂.heap 12).map (·.active))) =
    Except.ok (some 11, some 12, some true, some true) := by
  constructor <;> rfl


/-- On the GUIDs the spec's hex encoding writes, the registry is keyed by the
triple after all: two encoded GUIDs are equal exactly when their triples are,
and a write under one leaves the table entry and the records of every other
as they were. -/
theorem encoded_guids_keyed_by_triple (hs : Reachable s) (pid₁ cb₁ hash₁ pid₂ cb₂ hash₂ : UInt64) :
    (guidString pid₁ cb₁ hash₁ = guidString pid₂ cb₂ hash₂ ↔
      (pid₁, cb₁, hash₁) = (pid₂, cb₂, hash₂)) ∧
    ((pid₁, cb₁, hash₁) ≠ (pid₂, cb₂, hash₂) →
      ∀ (list : CallbackList) (value : Option String) (b : Bool) (s' : Registry),
        (Write.mk list (guidString pid₁ cb₁ hash₁) value).run s = .ok (b, s') →
        s'.guidToCallback (guidString pid₂ cb₂ hash₂) = s.guidToCallback (guidString pid₂ cb₂ hash₂) ∧
        ∀ a r, s.heap a = some r → r.guid = guidString pid₂ cb₂ hash₂ → s'.heap a = some r) := by
  have hiff : guidString pid₁ cb₁ hash₁ = guidString pid₂ cb₂ hash₂ ↔
      (pid₁, cb₁, hash₁) = (pid₂, cb₂, hash₂) :=
    ⟨guidString_inj, fun h => by cases h; rfl⟩
  refine ⟨hiff, fun hne list value b s' h => ?_⟩
  have hne' := Ne.symm (mt hiff.mp hne)
  obtain ⟨hrec, htab, -⟩ := hs.inv.run_frame h
  exact ⟨htab _ hne', fun a r hr hrg => hrec a r hr (.inl (hrg ▸ hne'))⟩

theorem encoded_guids_keyed_by_triple_initial :
    ∃ s s', Reachable s ∧ (Write.mk .watch (guidString 1 2 3) (some "/a")).run s = .ok (true, s') ∧
      s'.guidToCallback (guidString 1 2 4) = s.guidToCallback (guidString 1 2 4) := by
  obtain ⟨s, -, hs⟩ := reachable_configInit 0 fun _ => 0
  have h : (Write.mk .watch (guidString 1 2 3) (some "/a")).run s = .ok (true, _) :=
    (Write.run_eq _ (hs.inv.entryLive _)).trans rfl
  exact ⟨s, _, hs, h, ((encoded_guids_keyed_by_triple hs 1 2 3 1 2 4).2 (by decide) _ _ _ _ h).1⟩

end Apteryx
