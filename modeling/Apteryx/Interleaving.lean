import Apteryx.Concurrency

/-!
# Apteryx.Interleaving — handler writes to distinct GUIDs

`Apteryx.Concurrency` cuts `update_callback` into the regions between its
`guid_lock` sections and shows that two writes to one GUID can fault. This
module shows that the locking is enough when the GUIDs differ: under every
schedule of two threads of the five kinds that share `handleCallbacksSet`
no step faults, and once each thread has had six steps both writes are
over, the registry invariant holds again and the registrations are those
the two handlers leave run one after the other, in either order
(`distinct_guid_writes_serialisable`).

The proof is an Owicki–Gries argument. `WritersInv` is the invariant of the
two threads together: the registry facts of `Inv`, with the reference count
of each record split between its `active` flag and the thread that holds
it (`Thread.holds`), the region each thread is in (`Thread.Phase`), and the
registrations of every other GUID as they were. A step of one thread
changes the table at its own GUID only, and the heap only at records of its
own GUID or at fresh addresses (`StepFrame`), which keeps the other thread's
`Phase` (`Thread.Phase.frame`). `WritersInv.step` takes one case per region;
`WritersInv.interleave` runs it along a schedule, and `Pc.rank` bounds the
number of steps a write takes.
-/

namespace Apteryx

open Registry

/-! ## Regions, references and phases -/

/-- The regions a thread runs holding the reference `find_callback` or
`cb_create` gave it. -/
def Pc.holdsRef : Pc → Bool
  | .unlinkOld | .dropOld | .publish | .remove | .release => true
  | .find | .create | .done => false

/-- The thread holds a reference on the record at `a`. -/
def Thread.holds (t : Thread) (a : Nat) : Bool := t.pc.holdsRef && decide (t.cb = some a)

/-- The thread has created the record at `a` and not yet published it. -/
def Thread.Publishing (t : Thread) (a : Nat) : Prop := t.pc = .publish ∧ t.cb = some a

/-- The thread carries the fields `update_callback` parsed from its GUID. -/
def Thread.Parsed (t : Thread) : Prop := ∃ h, sscanfGuid t.guid = (3, t.pid, t.callback, h)

/-- What a write has left at its GUID once its update is over. -/
def Thread.Settled (s : Registry) (t : Thread) : Prop :=
  ¬ GuidAccepted t.guid ∨
  (t.Parsed ∧ t.value = none ∧ s.guidToCallback t.guid = none) ∨
  (t.Parsed ∧ ∃ v a n, t.value = some v ∧ s.guidToCallback t.guid = some a ∧
    s.heap a = some ⟨true, t.list, t.guid, v, none, t.pid, t.callback, n⟩)

/-- Where each region leaves the thread's GUID and records. -/
def Thread.Phase (s : Registry) (t : Thread) : Prop :=
  match t.pc with
  | .find => t.Parsed ∧ t.cb = none
  | .unlinkOld => t.Parsed ∧ t.value.isSome ∧ ∃ e, t.cb = some e ∧ s.guidToCallback t.guid = some e
  | .remove => t.Parsed ∧ t.value = none ∧ ∃ e, t.cb = some e ∧ s.guidToCallback t.guid = some e
  | .dropOld => t.Parsed ∧ t.value.isSome ∧ s.guidToCallback t.guid = none ∧
      ∃ e r, t.cb = some e ∧ s.heap e = some r ∧ r.active = false ∧ r.guid = t.guid
  | .create => t.Parsed ∧ t.value.isSome ∧ s.guidToCallback t.guid = none
  | .publish => t.Parsed ∧ s.guidToCallback t.guid = none ∧ ∃ v a n, t.value = some v ∧
      t.cb = some a ∧ s.heap a = some ⟨true, t.list, t.guid, v, none, t.pid, t.callback, n⟩
  | .release | .done => t.Settled s

/-- What a step of a thread writing `g` may change: the table at `g` only, and
the heap only at records of GUID `g` and at fresh addresses. -/
structure StepFrame (g : String) (s s' : Registry) : Prop where
  table : ∀ g', g' ≠ g → s'.guidToCallback g' = s.guidToCallback g'
  heap : ∀ a r, s.heap a = some r → r.guid ≠ g → s'.heap a = some r

theorem Thread.Settled.frame {g : String} {s s' : Registry} {t : Thread} (h : t.Settled s)
    (hf : StepFrame g s s') (hne : t.guid ≠ g) : t.Settled s' := by
  rcases h with h | ⟨hp, hv, ht⟩ | ⟨hp, v, a, n, hv, ht, hr⟩
  · exact .inl h
  · exact .inr (.inl ⟨hp, hv, by rw [hf.table _ hne, ht]⟩)
  · exact .inr (.inr ⟨hp, v, a, n, hv, by rw [hf.table _ hne, ht], hf.heap _ _ hr hne⟩)

theorem Thread.Phase.frame {g : String} {s s' : Registry} {t : Thread} (h : t.Phase s)
    (hf : StepFrame g s s') (hne : t.guid ≠ g) : t.Phase s' := by
  have ht := hf.table _ hne
  unfold Thread.Phase at h ⊢
  split at h
  · exact h
  · exact ⟨h.1, h.2.1, by rw [ht]; exact h.2.2⟩
  · exact ⟨h.1, h.2.1, by rw [ht]; exact h.2.2⟩
  · obtain ⟨hp, hv, hn, e, r, hc, hr, ha, hg⟩ := h
    exact ⟨hp, hv, by rw [ht, hn], e, r, hc, hf.heap _ _ hr (hg ▸ hne), ha, hg⟩
  · exact ⟨h.1, h.2.1, by rw [ht, h.2.2]⟩
  · obtain ⟨hp, hn, v, a, n, hv, hc, hr⟩ := h
    exact ⟨hp, by rw [ht, hn], v, a, n, hv, hc, hf.heap _ _ hr hne⟩
  · exact h.frame hf hne
  · exact h.frame hf hne

/-! ## The invariant of two writers -/

/-- The invariant while two handler writes run on distinct GUIDs, `m₀` being the
registrations before they started. -/
structure WritersInv (m₀ : String → Option Registration) (s : Registry) (t u : Thread) : Prop where
  guid_ne : t.guid ≠ u.guid
  builtin_le_next : builtinCount ≤ s.next
  fresh : ∀ a, s.next ≤ a → s.heap a = none
  builtin : ∀ a < builtinCount, ∃ r, s.heap a = some r ∧ r.active ∧ ¬ GuidAccepted r.guid
  table : ∀ g a, s.guidToCallback g = some a →
    builtinCount ≤ a ∧ ∃ r, s.heap a = some r ∧ r.active ∧ r.guid = g
  refcnt : ∀ a r, s.heap a = some r →
    r.refcnt = r.active.toNat + (t.holds a).toNat + (u.holds a).toNat
  active_entry : ∀ a r, s.heap a = some r → r.active → builtinCount ≤ a →
    s.guidToCallback r.guid = some a ∨ t.Publishing a ∨ u.Publishing a
  held_left : ∀ a, t.holds a → ∃ r, s.heap a = some r ∧ r.guid = t.guid ∧ builtinCount ≤ a
  held_right : ∀ a, u.holds a → ∃ r, s.heap a = some r ∧ r.guid = u.guid ∧ builtinCount ≤ a
  phase_left : t.Phase s
  phase_right : u.Phase s
  view : ∀ g, (t.guid = g → ¬ GuidAccepted g) → (u.guid = g → ¬ GuidAccepted g) → s.view g = m₀ g

variable {m₀ : String → Option Registration} {s : Registry} {t u : Thread}

theorem WritersInv.symm (h : WritersInv m₀ s t u) : WritersInv m₀ s u t where
  guid_ne := h.guid_ne.symm
  builtin_le_next := h.builtin_le_next
  fresh := h.fresh
  builtin := h.builtin
  table := h.table
  refcnt a r hr := by rw [h.refcnt a r hr]; omega
  active_entry a r hr hact hle := by
    rcases h.active_entry a r hr hact hle with h' | h' | h'
    exacts [.inl h', .inr (.inr h'), .inr (.inl h')]
  held_left := h.held_right
  held_right := h.held_left
  phase_left := h.phase_right
  phase_right := h.phase_left
  view g h₁ h₂ := h.view g h₂ h₁

/-- The other thread does not hold the records of the stepping thread's GUID. -/
theorem WritersInv.not_holds_right (h : WritersInv m₀ s t u) {a : Nat} {r : CbInfo}
    (hr : s.heap a = some r) (hg : r.guid = t.guid) : u.holds a = false := by
  by_contra hu
  obtain ⟨r', hr', hg', -⟩ := h.held_right a (by simpa using hu)
  rw [hr] at hr'; cases hr'
  exact h.guid_ne (hg.symm.trans hg')

theorem Registry.view_store_refcnt {s : Registry} {a : Nat} {r : CbInfo} (hr : s.heap a = some r)
    (n : Nat) : (s.store a { r with refcnt := n }).view = s.view := by
  funext g
  simp only [Registry.view, store_heap, store_guidToCallback]
  cases s.guidToCallback g with
  | none => rfl
  | some x =>
    by_cases hx : x = a
    · subst hx; simp [hr, CbInfo.registration]
    · simp [Function.update_noteq hx]


theorem StepFrame.view_eq {g g' : String} {s s' : Registry} (hf : StepFrame g s s')
    (htab : ∀ a, s.guidToCallback g' = some a → ∃ r, s.heap a = some r ∧ r.guid = g')
    (hne : g' ≠ g) : s'.view g' = s.view g' := by
  simp only [Registry.view, hf.table _ hne]
  rcases ht : s.guidToCallback g' with _ | a
  · rfl
  · obtain ⟨r, hr, rfl⟩ := htab a ht
    simp [hr, hf.heap _ _ hr hne]

/-- A step of `t` that keeps to its frame keeps the other thread's facts and
the registrations of every other GUID; the rest of the invariant is the
step's own. -/
theorem WritersInv.step_of (h : WritersInv m₀ s t u) {s' : Registry} {t' : Thread}
    (hf : StepFrame t.guid s s') (hg : t'.guid = t.guid)
    (hview : ¬ GuidAccepted t.guid → s'.view t.guid = s.view t.guid)
    (builtin_le_next : builtinCount ≤ s'.next)
    (fresh : ∀ a, s'.next ≤ a → s'.heap a = none)
    (builtin : ∀ a < builtinCount, ∃ r, s'.heap a = some r ∧ r.active ∧ ¬ GuidAccepted r.guid)
    (table : ∀ g a, s'.guidToCallback g = some a →
      builtinCount ≤ a ∧ ∃ r, s'.heap a = some r ∧ r.active ∧ r.guid = g)
    (refcnt : ∀ a r, s'.heap a = some r →
      r.refcnt = r.active.toNat + (t'.holds a).toNat + (u.holds a).toNat)
    (active_entry : ∀ a r, s'.heap a = some r → r.active → builtinCount ≤ a →
      s'.guidToCallback r.guid = some a ∨ t'.Publishing a ∨ u.Publishing a)
    (held_left : ∀ a, t'.holds a → ∃ r, s'.heap a = some r ∧ r.guid = t'.guid ∧ builtinCount ≤ a)
    (phase_left : t'.Phase s') : WritersInv m₀ s' t' u where
  guid_ne := hg ▸ h.guid_ne
  builtin_le_next := builtin_le_next
  fresh := fresh
  builtin := builtin
  table := table
  refcnt := refcnt
  active_entry := active_entry
  held_left := held_left
  held_right a ha := by
    obtain ⟨r, hr, hrg, hle⟩ := h.held_right a ha
    exact ⟨r, hf.heap _ _ hr (hrg ▸ h.guid_ne.symm), hrg, hle⟩
  phase_left := phase_left
  phase_right := h.phase_right.frame hf h.guid_ne.symm
  view g h₁ h₂ := by
    have htab : ∀ a, s.guidToCallback g = some a → ∃ r, s.heap a = some r ∧ r.guid = g :=
      fun a ha => by obtain ⟨-, r, hr, -, hrg⟩ := h.table g a ha; exact ⟨r, hr, hrg⟩
    by_cases hgt : g = t.guid
    · subst hgt
      rw [hview (h₁ hg), h.view _ (fun _ => h₁ hg) h₂]
    · rw [hf.view_eq htab hgt, h.view g (fun e => absurd e.symm hgt) h₂]


theorem Registry.store_heap_apply (s : Registry) (a x : Nat) (r : CbInfo) :
    (s.store a r).heap x = if x = a then some r else s.heap x := by
  simp [Function.update_apply]

theorem WritersInv.lt_next (h : WritersInv m₀ s t u) {a : Nat} {r : CbInfo}
    (hr : s.heap a = some r) : a < s.next :=
  Nat.lt_of_not_le fun hle => by simp [h.fresh a hle] at hr

/-- A step that moves only the reference count of one record of its own GUID
keeps the invariant, when the count it writes is the one the invariant asks. -/
theorem WritersInv.store_refcnt (h : WritersInv m₀ s t u) {a : Nat} {r : CbInfo}
    (hr : s.heap a = some r) (hrg : r.guid = t.guid) (hle : builtinCount ≤ a)
    {t' : Thread} (hg : t'.guid = t.guid) (hpc : t.pc ≠ .publish)
    (hholds : ∀ x, x ≠ a → t'.holds x = t.holds x)
    (n : Nat) (hn : n = r.active.toNat + (t'.holds a).toNat)
    (hphase : t'.Phase (s.store a { r with refcnt := n })) :
    WritersInv m₀ (s.store a { r with refcnt := n }) t' u := by
  have hu := h.not_holds_right hr hrg
  have hlt := h.lt_next hr
  have hnp : ∀ x, ¬ t.Publishing x := fun x hx => hpc hx.1
  refine h.step_of ⟨fun g' _ => rfl, fun x r' hx hne => ?_⟩ hg
    (fun _ => by rw [view_store_refcnt hr]) (by simpa using h.builtin_le_next)
    (fun x hx => ?_) (fun x hx => ?_) (fun g x hx => ?_) (fun x r' hx => ?_)
    (fun x r' hx hact hle' => ?_) (fun x hx => ?_) hphase
  · have : x ≠ a := by rintro rfl; rw [hr] at hx; cases hx; exact hne hrg
    simpa [store_heap_apply, this] using hx
  · have : x ≠ a := by simp at hx; omega
    simpa [store_heap_apply, this] using h.fresh x (by simpa using hx)
  · simpa [store_heap_apply, show x ≠ a by omega] using h.builtin x hx
  · obtain ⟨hle', r', hr', hact, hrg'⟩ := h.table g x hx
    refine ⟨hle', ?_⟩
    by_cases hxa : x = a
    · subst hxa; rw [hr] at hr'; cases hr'
      exact ⟨{ r with refcnt := n }, by simp [store_heap_apply], hact, hrg'⟩
    · exact ⟨r', by simp [store_heap_apply, hxa, hr'], hact, hrg'⟩
  · by_cases hxa : x = a
    · subst hxa; simp [store_heap_apply] at hx; subst hx; simp [hn, hu]
    · simp [store_heap_apply, hxa] at hx
      rw [h.refcnt x r' hx, hholds x hxa]
  · by_cases hxa : x = a
    · subst hxa; simp [store_heap_apply] at hx; subst hx
      rcases h.active_entry _ r hr hact hle' with h' | h' | h'
      exacts [.inl (by simpa using h'), absurd h' (hnp _), .inr (.inr h')]
    · simp [store_heap_apply, hxa] at hx
      rcases h.active_entry x r' hx hact hle' with h' | h' | h'
      exacts [.inl (by simpa using h'), absurd h' (hnp _), .inr (.inr h')]
  · by_cases hxa : x = a
    · subst hxa; exact ⟨{ r with refcnt := n }, by simp [store_heap_apply], hrg.trans hg.symm, hle⟩
    · obtain ⟨r', hr', hrg', hle'⟩ := h.held_left x (by rwa [← hholds x hxa])
      exact ⟨r', by simp [store_heap_apply, hxa, hr'], hrg'.trans hg.symm, hle'⟩

/-- A step that changes only the stepping thread's own state. -/
theorem WritersInv.retarget (h : WritersInv m₀ s t u) {t' : Thread} (hg : t'.guid = t.guid)
    (hpc : t.pc ≠ .publish) (hholds : ∀ x, t'.holds x = t.holds x) (hphase : t'.Phase s) :
    WritersInv m₀ s t' u :=
  h.step_of ⟨fun _ _ => rfl, fun _ _ hx _ => hx⟩ hg (fun _ => rfl) h.builtin_le_next h.fresh
    h.builtin h.table (fun x r hx => by rw [h.refcnt x r hx, hholds])
    (fun x r hx hact hle => (h.active_entry x r hx hact hle).imp_right
      fun h' => .inr (h'.resolve_left fun hp => hpc hp.1))
    (fun x hx => by rw [hg]; exact h.held_left x (by rwa [← hholds])) hphase

theorem Thread.Parsed.accepted {t : Thread} (h : t.Parsed) : GuidAccepted t.guid := by
  obtain ⟨_, h⟩ := h
  simp [GuidAccepted, h]

/-! ## One step of either thread -/

/-- `find_callback`: take a reference on the entry, if there is one, and go
where `update_callback` goes with it. -/
theorem WritersInv.step_find (h : WritersInv m₀ s t u) (hpc : t.pc = .find) :
    ∃ t' s', t.step s = .ok (t', s') ∧ WritersInv m₀ s' t' u := by
  have hph := h.phase_left
  simp only [Thread.Phase, hpc] at hph
  obtain ⟨⟨hh, hp⟩, hcb⟩ := hph
  have hnh : ∀ x, t.holds x = false := by simp [Thread.holds, hpc, Pc.holdsRef]
  rcases ht : s.guidToCallback t.guid with _ | e
  · refine ⟨{ t with cb := none, pc := afterFind none t.value }, s,
      by simp [Thread.step, hpc, findCallback_of_none ht], h.retarget rfl (by simp [hpc]) ?_ ?_⟩
    · intro x; cases hv : t.value <;> simp [Thread.holds, afterFind, hv, hpc, Pc.holdsRef]
    · cases hv : t.value <;> simp [Thread.Phase, Thread.Settled, Thread.Parsed, afterFind, hv, hp, ht]
  · obtain ⟨hle, r, hr, hact, hrg⟩ := h.table _ _ ht
    have hrc : r.refcnt = 1 := by
      rw [h.refcnt e r hr, hnh, h.not_holds_right hr hrg, hact]; rfl
    refine ⟨{ t with cb := some e, pc := afterFind (some e) t.value },
      s.store e { r with refcnt := r.refcnt + 1 },
      by simp [Thread.step, hpc, findCallback_of_some ht hr (by omega)], ?_⟩
    apply h.store_refcnt hr hrg hle (by rfl) (by simp [hpc])
    · intro x hx
      cases hv : t.value <;> simp [Thread.holds, afterFind, hv, hpc, Pc.holdsRef, Ne.symm hx]
    · cases hv : t.value <;> simp [Thread.holds, afterFind, hv, Pc.holdsRef, hrc, hact]
    · cases hv : t.value <;> simp [Thread.Phase, Thread.Parsed, afterFind, hv, hp, ht]

/-- The write-locked unlinking of the entry a thread found (lines 102–106 and
132–136): the key goes, and the record, disabled, keeps the thread's
reference only. -/
theorem WritersInv.unlink (h : WritersInv m₀ s t u) {e : Nat} {r : CbInfo} (hcb : t.cb = some e)
    (ht : s.guidToCallback t.guid = some e) (hr : s.heap e = some r) (hpc : t.pc ≠ .publish)
    (hp : t.Parsed) {q : Pc} (hq : q.holdsRef = true)
    (hphase : ({ t with pc := q } : Thread).Phase
      ((s.store e { r with active := false, refcnt := 1 }).tableRemove t.guid)) :
    WritersInv m₀ ((s.store e { r with active := false, refcnt := 1 }).tableRemove t.guid)
      { t with pc := q } u := by
  obtain ⟨hle, r', hr', -, hrg⟩ := h.table _ _ ht
  rw [hr] at hr'; cases hr'
  have hu := h.not_holds_right hr hrg
  have hlt := h.lt_next hr
  have hne : ∀ x r', s.heap x = some r' → r'.guid ≠ t.guid → x ≠ e := by
    rintro x r' hx hne rfl; rw [hr] at hx; cases hx; exact hne hrg
  have hholds : ∀ x, x ≠ e → ({ t with pc := q } : Thread).holds x = false := by
    intro x hx; simp [Thread.holds, hcb, Ne.symm hx]
  have hholds' : ∀ x, x ≠ e → t.holds x = false := by
    intro x hx; simp [Thread.holds, hcb, Ne.symm hx]
  refine h.step_of ⟨fun g' hg' => by simp [Function.update_noteq hg'],
    fun x r' hx hg' => by simpa [store_heap_apply, hne x r' hx hg'] using hx⟩ rfl
    (fun hna => absurd hp.accepted hna) (by simpa using h.builtin_le_next)
    (fun x hx => ?_) (fun x hx => ?_) (fun g x hx => ?_) (fun x r' hx => ?_)
    (fun x r' hx hact hle' => ?_) (fun x hx => ?_) hphase
  · have : x ≠ e := by simp at hx; omega
    simpa [store_heap_apply, this] using h.fresh x (by simpa using hx)
  · simpa [store_heap_apply, show x ≠ e by omega] using h.builtin x hx
  · have hg : g ≠ t.guid := by rintro rfl; simp at hx
    simp only [tableRemove_guidToCallback, Function.update_noteq hg] at hx
    obtain ⟨hle', r', hr', hact, rfl⟩ := h.table g x hx
    exact ⟨hle', r', by simpa [store_heap_apply, hne x r' hr' (Ne.symm hg ∘ Eq.symm)] using hr',
      hact, rfl⟩
  · by_cases hxe : x = e
    · subst hxe; simp [store_heap_apply] at hx; subst hx
      rw [hu]; simp [Thread.holds, hcb, hq]
    · simp [store_heap_apply, hxe] at hx
      rw [h.refcnt x r' hx, hholds x hxe, hholds' x hxe]
  · have hxe : x ≠ e := by rintro rfl; simp [store_heap_apply] at hx; simp [← hx] at hact
    simp [store_heap_apply, hxe] at hx
    rcases h.active_entry x r' hx hact hle' with h' | h' | h'
    · have hg : r'.guid ≠ t.guid := by rintro hg; rw [hg, ht] at h'; exact hxe (Option.some.inj h').symm
      exact .inl (by simpa [Function.update_noteq hg] using h')
    · exact absurd h'.1 hpc
    · exact .inr (.inr h')
  · have hxe : x = e := by by_contra hxe; simp [hholds x hxe] at hx
    subst hxe
    exact ⟨{ r with active := false, refcnt := 1 }, by simp [store_heap_apply], hrg, hle⟩

/-- The holder's count of the entry it found: the tree's reference and its own. -/
theorem WritersInv.refcnt_found (h : WritersInv m₀ s t u) {e : Nat} {r : CbInfo}
    (hcb : t.cb = some e) (ht : s.guidToCallback t.guid = some e) (hr : s.heap e = some r)
    (hpc : t.pc.holdsRef = true) : r.refcnt = 2 ∧ r.guid = t.guid := by
  obtain ⟨-, r', hr', hact, hrg⟩ := h.table _ _ ht
  rw [hr] at hr'; cases hr'
  rw [h.refcnt e r hr, h.not_holds_right hr hrg, hact]
  simp [Thread.holds, hpc, hcb, hrg]

theorem WritersInv.step_unlinkOld (h : WritersInv m₀ s t u) (hpc : t.pc = .unlinkOld) :
    ∃ t' s', t.step s = .ok (t', s') ∧ WritersInv m₀ s' t' u := by
  have hph := h.phase_left
  simp only [Thread.Phase, hpc] at hph
  obtain ⟨hp, hv, e, hcb, ht⟩ := hph
  obtain ⟨-, r, hr, hact, -⟩ := h.table _ _ ht
  obtain ⟨hrc, hrg⟩ := h.refcnt_found hcb ht hr (by simp [hpc, Pc.holdsRef])
  refine ⟨{ t with pc := .dropOld }, _,
    by simp [Thread.step, hpc, hcb, unlinkCallback_of_live hr (by omega), hrc, hrg],
    h.unlink hcb ht hr (by simp [hpc]) hp rfl ?_⟩
  obtain ⟨hh, hp⟩ := hp
  simp [Thread.Phase, Thread.Parsed, hp, hv, hcb, store_heap_apply, hrg]

theorem WritersInv.step_remove (h : WritersInv m₀ s t u) (hpc : t.pc = .remove) :
    ∃ t' s', t.step s = .ok (t', s') ∧ WritersInv m₀ s' t' u := by
  have hph := h.phase_left
  simp only [Thread.Phase, hpc] at hph
  obtain ⟨hp, hv, e, hcb, ht⟩ := hph
  obtain ⟨-, r, hr, hact, -⟩ := h.table _ _ ht
  obtain ⟨hrc, hrg⟩ := h.refcnt_found hcb ht hr (by simp [hpc, Pc.holdsRef])
  refine ⟨{ t with pc := .release }, _,
    by simp [Thread.step, hpc, hcb, unlinkCallback_of_live hr (by omega), hrc, hrg],
    h.unlink hcb ht hr (by simp [hpc]) hp rfl ?_⟩
  obtain ⟨hh, hp⟩ := hp
  simp [Thread.Phase, Thread.Settled, Thread.Parsed, hp, hv]

theorem WritersInv.step_dropOld (h : WritersInv m₀ s t u) (hpc : t.pc = .dropOld) :
    ∃ t' s', t.step s = .ok (t', s') ∧ WritersInv m₀ s' t' u := by
  have hph := h.phase_left
  simp only [Thread.Phase, hpc] at hph
  obtain ⟨⟨hh, hp⟩, hv, ht, e, r, hcb, hr, hact, hrg⟩ := hph
  have hheld : t.holds e = true := by simp [Thread.holds, hpc, hcb, Pc.holdsRef]
  obtain ⟨-, -, -, hle⟩ := h.held_left e hheld
  have hrc : r.refcnt = 1 := by
    rw [h.refcnt e r hr, hheld, h.not_holds_right hr hrg, hact]; rfl
  have hdis : { r with active := false } = r := by cases r; simp_all
  refine ⟨{ t with pc := .create }, s.store e { r with refcnt := 0 }, ?_, ?_⟩
  · simp [Thread.step, hpc, hcb, cbDisable_of_live hr (by omega), hdis, cbRelease, hrc, hact,
      bind, Except.bind, pure, Except.pure]
  · apply h.store_refcnt hr hrg hle (by rfl) (by simp [hpc])
    · intro x hx; simp [Thread.holds, hpc, hcb, Pc.holdsRef, Ne.symm hx]
    · simp [Thread.holds, Pc.holdsRef, hact]
    · simp [Thread.Phase, Thread.Parsed, hp, hv, ht]

theorem Registry.alloc_heap_apply (s : Registry) (r : CbInfo) (x : Nat) :
    (s.alloc r).heap x = if x = s.next then some r else s.heap x := by
  simp [Function.update_apply]

/-- `cb_create`: a fresh active record, with the tree's reference and the
thread's. -/
theorem WritersInv.step_create (h : WritersInv m₀ s t u) (hpc : t.pc = .create) :
    ∃ t' s', t.step s = .ok (t', s') ∧ WritersInv m₀ s' t' u := by
  have hph := h.phase_left
  simp only [Thread.Phase, hpc] at hph
  obtain ⟨hp, hv, ht⟩ := hph
  obtain ⟨v, hv⟩ := Option.isSome_iff_exists.mp hv
  refine ⟨{ t with cb := some s.next, pc := .publish },
    s.alloc ⟨true, t.list, t.guid, v, none, t.pid, t.callback, 2⟩,
    by simp [Thread.step, hpc, hv, cbCreate, ok_eq_pure], ?_⟩
  have hnh : ∀ x, t.holds x = false := by simp [Thread.holds, hpc, Pc.holdsRef]
  have hlt : ∀ x r, s.heap x = some r → x ≠ s.next := fun x r hx => Nat.ne_of_lt (h.lt_next hx)
  have hu : u.holds s.next = false := by
    by_contra hu
    obtain ⟨r, hr, -⟩ := h.held_right _ (by simpa using hu)
    exact hlt _ _ hr rfl
  have hle := h.builtin_le_next
  refine h.step_of ⟨fun _ _ => rfl, fun x r hx _ => by simp [alloc_heap_apply, hlt x r hx, hx]⟩
    rfl (fun hna => absurd hp.accepted hna) (by simp; omega) (fun x hx => ?_) (fun x hx => ?_)
    (fun g x hx => ?_) (fun x r hx => ?_) (fun x r hx hact hle' => ?_) (fun x hx => ?_) ?_
  · simp at hx
    simp [alloc_heap_apply, show x ≠ s.next by omega, h.fresh x (by omega)]
  · simpa [alloc_heap_apply, show x ≠ s.next by omega] using h.builtin x hx
  · obtain ⟨hle', r, hr, hact, hrg⟩ := h.table g x (by simpa using hx)
    exact ⟨hle', r, by simp [alloc_heap_apply, hlt x r hr, hr], hact, hrg⟩
  · by_cases hx' : x = s.next
    · subst hx'; simp [alloc_heap_apply] at hx; subst hx
      rw [hu]; simp [Thread.holds, Pc.holdsRef]
    · simp [alloc_heap_apply, hx'] at hx
      rw [h.refcnt x r hx, hnh]
      simp [Thread.holds, Pc.holdsRef, Ne.symm hx']
  · by_cases hx' : x = s.next
    · exact .inr (.inl ⟨rfl, by rw [hx']⟩)
    · simp [alloc_heap_apply, hx'] at hx
      rcases h.active_entry x r hx hact hle' with h' | h' | h'
      · exact .inl (by simpa using h')
      · simp [Thread.Publishing, hpc] at h'
      · exact .inr (.inr h')
  · have hx' : x = s.next := by by_contra hx'; simp [Thread.holds, Ne.symm hx'] at hx
    subst hx'
    exact ⟨⟨true, t.list, t.guid, v, none, t.pid, t.callback, 2⟩, by simp [alloc_heap_apply], rfl, hle⟩
  · obtain ⟨hh, hp⟩ := hp
    simp [Thread.Phase, Thread.Parsed, hp, hv, ht, alloc_heap_apply]

/-- `g_hash_table_replace`: the created record becomes the GUID's entry. -/
theorem WritersInv.step_publish (h : WritersInv m₀ s t u) (hpc : t.pc = .publish) :
    ∃ t' s', t.step s = .ok (t', s') ∧ WritersInv m₀ s' t' u := by
  have hph := h.phase_left
  simp only [Thread.Phase, hpc] at hph
  obtain ⟨hp, ht, v, a, n, hv, hcb, hr⟩ := hph
  have hheld : t.holds a = true := by simp [Thread.holds, hpc, hcb, Pc.holdsRef]
  obtain ⟨-, -, -, hle⟩ := h.held_left a hheld
  have hn : n = 2 := by
    have := h.refcnt a _ hr
    rw [hheld, h.not_holds_right hr rfl] at this
    simpa using this
  refine ⟨{ t with pc := .release }, s.tableReplace t.guid a,
    by simp [Thread.step, hpc, hcb, deref, hr, hn, ok_eq_pure], ?_⟩
  have hholds : ∀ x, ({ t with pc := .release } : Thread).holds x = t.holds x := by
    simp [Thread.holds, hpc, Pc.holdsRef]
  refine h.step_of ⟨fun g' hg' => by simp [Function.update_noteq hg'], fun x r hx _ => hx⟩ rfl
    (fun hna => absurd hp.accepted hna) h.builtin_le_next h.fresh h.builtin (fun g x hx => ?_)
    (fun x r hx => by rw [h.refcnt x r hx, hholds]) (fun x r hx hact hle' => ?_)
    (fun x hx => h.held_left x (by rwa [← hholds])) ?_
  · by_cases hg : g = t.guid
    · subst hg; simp at hx; subst hx
      exact ⟨hle, _, hr, rfl, rfl⟩
    · simpa [Function.update_noteq hg] using h.table g x (by simpa [Function.update_noteq hg] using hx)
  · by_cases hxa : x = a
    · subst hxa; simp only [tableReplace_heap, hr, Option.some.injEq] at hx; subst hx
      exact .inl (by simp)
    · rcases h.active_entry x r hx hact hle' with h' | h' | h'
      · have hg : r.guid ≠ t.guid := by rintro hg; rw [hg, ht] at h'; cases h'
        exact .inl (by simpa [Function.update_noteq hg] using h')
      · exact absurd (Option.some.inj (h'.2.symm.trans hcb)) hxa
      · exact .inr (.inr h')
  · exact .inr (.inr ⟨hp, v, a, n, hv, by simp, hr⟩)

theorem Thread.Settled.store_refcnt {s : Registry} {t : Thread} (h : t.Settled s) {a : Nat}
    {r : CbInfo} (hr : s.heap a = some r) (n : Nat) : t.Settled (s.store a { r with refcnt := n }) := by
  rcases h with h | ⟨hp, hv, ht⟩ | ⟨hp, v, b, m, hv, ht, hb⟩
  · exact .inl h
  · exact .inr (.inl ⟨hp, hv, ht⟩)
  · refine .inr (.inr ⟨hp, v, b, ?_⟩)
    by_cases hba : b = a
    · subst hba; rw [hr] at hb; cases hb
      exact ⟨n, hv, ht, by simp [store_heap_apply]⟩
    · exact ⟨m, hv, ht, by simp [store_heap_apply, hba, hb]⟩

/-- The handler's `cb_release` of what `update_callback` returned. -/
theorem WritersInv.step_release (h : WritersInv m₀ s t u) (hpc : t.pc = .release) :
    ∃ t' s', t.step s = .ok (t', s') ∧ WritersInv m₀ s' t' u := by
  have hph := h.phase_left
  simp only [Thread.Phase, hpc] at hph
  have hdone : ∀ x, ({ t with pc := .done } : Thread).holds x = false := by
    simp [Thread.holds, Pc.holdsRef]
  rcases hcb : t.cb with _ | a
  · refine ⟨{ t with pc := .done }, s, by simp [Thread.step, hpc, hcb, ok_eq_pure],
      h.retarget rfl (by simp [hpc]) (fun x => by simp [hdone, Thread.holds, hcb]) ?_⟩
    simpa [Thread.Phase] using hph
  · have hheld : t.holds a = true := by simp [Thread.holds, hpc, hcb, Pc.holdsRef]
    obtain ⟨r, hr, hrg, hle⟩ := h.held_left a hheld
    have hrc := h.refcnt a r hr
    rw [hheld, h.not_holds_right hr hrg] at hrc
    refine ⟨{ t with pc := .done }, s.store a { r with refcnt := r.refcnt - 1 },
      by simp [Thread.step, hpc, hcb, cbRelease_of_live hr (by simp at hrc; omega), ok_eq_pure], ?_⟩
    apply h.store_refcnt hr hrg hle (by rfl) (by simp [hpc])
    · intro x hx; simp [hdone, Thread.holds, hpc, hcb, Pc.holdsRef, Ne.symm hx]
    · rw [hdone]; simp at hrc; simp; omega
    · simpa [Thread.Phase] using hph.store_refcnt hr _

theorem WritersInv.step_done (h : WritersInv m₀ s t u) (hpc : t.pc = .done) :
    ∃ t' s', t.step s = .ok (t', s') ∧ WritersInv m₀ s' t' u :=
  ⟨{ t with pc := .done }, s, by simp [Thread.step, hpc, ok_eq_pure],
    h.retarget rfl (by simp [hpc]) (fun x => by simp [Thread.holds, hpc])
      (by simpa [Thread.Phase, hpc] using h.phase_left)⟩

/-- One step of either thread: it never faults, and the invariant holds
after it. -/
theorem WritersInv.step (h : WritersInv m₀ s t u) :
    ∃ t' s', t.step s = .ok (t', s') ∧ WritersInv m₀ s' t' u := by
  cases hpc : t.pc
  · exact h.step_find hpc
  · exact h.step_unlinkOld hpc
  · exact h.step_dropOld hpc
  · exact h.step_create hpc
  · exact h.step_publish hpc
  · exact h.step_remove hpc
  · exact h.step_release hpc
  · exact h.step_done hpc

/-! ## Runs and progress -/

/-- Any schedule of the two threads: no fault, and the invariant all along. -/
theorem WritersInv.interleave (σ : List Bool) (h : WritersInv m₀ s t u) :
    ∃ t' u' s', interleave σ t u s = .ok (t', u', s') ∧ WritersInv m₀ s' t' u' := by
  induction σ generalizing s t u with
  | nil => exact ⟨t, u, s, rfl, h⟩
  | cons b σ ih =>
    cases b
    · obtain ⟨t', s', hst, h'⟩ := h.step
      obtain ⟨t'', u'', s'', hrun, h''⟩ := ih h'
      exact ⟨t'', u'', s'', by rw [Apteryx.interleave, hst]; exact hrun, h''⟩
    · obtain ⟨u', s', hst, h'⟩ := h.symm.step
      obtain ⟨t'', u'', s'', hrun, h''⟩ := ih h'.symm
      exact ⟨t'', u'', s'', by rw [Apteryx.interleave, hst]; exact hrun, h''⟩

/-- How far a thread is from the end of its write. -/
def Pc.rank : Pc → Nat
  | .find => 6
  | .unlinkOld => 5
  | .dropOld => 4
  | .create => 3
  | .publish | .remove => 2
  | .release => 1
  | .done => 0

theorem afterFind_rank (cb : Option Nat) (v : Option String) :
    (afterFind cb v).rank < Pc.find.rank := by
  cases cb <;> cases v <;> simp [afterFind, Pc.rank]

theorem Pc.rank_pos_or (p : Pc) : Pc.done.rank < p.rank ∨ p = .done := by
  cases p <;> simp [Pc.rank]

/-- Every step moves a thread closer to the end of its write, or leaves it
at the end. -/
theorem Thread.step_rank {t t' : Thread} {s s' : Registry} (h : t.step s = .ok (t', s')) :
    t'.pc.rank < t.pc.rank ∨ (t.pc = .done ∧ t'.pc = .done) := by
  unfold Thread.step at h
  split at h <;> simp only [bind, Except.bind, pure, Except.pure] at h <;>
    (repeat' split at h) <;> (try cases h) <;> simp_all [afterFind_rank, Pc.rank_pos_or] <;> decide

theorem Pc.rank_eq_zero {p : Pc} (h : p.rank = 0) : p = .done := by
  cases p <;> simp_all [Pc.rank]

theorem interleave_cons_false {σ : List Bool} {t u t' u' : Thread} {s s' : Registry}
    (h : interleave (false :: σ) t u s = .ok (t', u', s')) :
    ∃ t₁ s₁, t.step s = .ok (t₁, s₁) ∧ interleave σ t₁ u s₁ = .ok (t', u', s') := by
  rcases hst : t.step s with _ | ⟨t₁, s₁⟩
  · rw [Apteryx.interleave, hst] at h; cases h
  · rw [Apteryx.interleave, hst] at h; exact ⟨t₁, s₁, rfl, h⟩

theorem interleave_cons_true {σ : List Bool} {t u t' u' : Thread} {s s' : Registry}
    (h : interleave (true :: σ) t u s = .ok (t', u', s')) :
    ∃ u₁ s₁, u.step s = .ok (u₁, s₁) ∧ interleave σ t u₁ s₁ = .ok (t', u', s') := by
  rcases hst : u.step s with _ | ⟨u₁, s₁⟩
  · rw [Apteryx.interleave, hst] at h; cases h
  · rw [Apteryx.interleave, hst] at h; exact ⟨u₁, s₁, rfl, h⟩

/-- A schedule that gives a thread as many steps as its rank finishes it. -/
theorem interleave_done {σ : List Bool} {t u t' u' : Thread} {s s' : Registry}
    (h : interleave σ t u s = .ok (t', u', s')) :
    (t.pc.rank ≤ σ.count false → t'.pc = .done) ∧ (u.pc.rank ≤ σ.count true → u'.pc = .done) := by
  induction σ generalizing t u s with
  | nil =>
    cases h
    exact ⟨fun h => Pc.rank_eq_zero (by simpa using h), fun h => Pc.rank_eq_zero (by simpa using h)⟩
  | cons b σ ih =>
    cases b
    · obtain ⟨t₁, s₁, hst, hrun⟩ := interleave_cons_false h
      have := ih hrun
      refine ⟨fun hr => this.1 ?_, fun hr => this.2 (by simpa using hr)⟩
      rcases Thread.step_rank hst with hlt | ⟨-, hd⟩
      · simp at hr; omega
      · simp [hd, Pc.rank]
    · obtain ⟨u₁, s₁, hst, hrun⟩ := interleave_cons_true h
      have := ih hrun
      refine ⟨fun hr => this.1 (by simpa using hr), fun hr => this.2 ?_⟩
      rcases Thread.step_rank hst with hlt | ⟨-, hd⟩
      · simp at hr; omega
      · simp [hd, Pc.rank]

/-! ## From `Inv` and back -/

theorem Thread.start_eq (l : CallbackList) (g : String) (v : Option String) :
    Thread.start l g v = ⟨l, g, v, (sscanfGuid g).2.1, (sscanfGuid g).2.2.1, none,
      if (sscanfGuid g).1 ≠ 3 then .release else .find⟩ := rfl

theorem Thread.start_holds (l : CallbackList) (g : String) (v : Option String) (a : Nat) :
    (Thread.start l g v).holds a = false := by
  simp [Thread.start_eq, Thread.holds]

theorem Thread.start_phase (s : Registry) (l : CallbackList) (g : String) (v : Option String) :
    (Thread.start l g v).Phase s := by
  by_cases ha : GuidAccepted g
  · have hn : (sscanfGuid g).1 = 3 := ha
    simp only [Thread.start_eq, Thread.Phase, hn, ne_eq, not_true_eq_false, if_false, and_true]
    exact ⟨(sscanfGuid g).2.2.2, by rw [← hn]⟩
  · have hn : (sscanfGuid g).1 ≠ 3 := ha
    simp only [Thread.start_eq, Thread.Phase, hn, ne_eq, not_false_eq_true, if_true]
    exact .inl ha

theorem WritersInv.start (hI : Inv s) {l₁ l₂ : CallbackList} {g₁ g₂ : String}
    {v₁ v₂ : Option String} (hne : g₁ ≠ g₂) :
    WritersInv s.view s (Thread.start l₁ g₁ v₁) (Thread.start l₂ g₂ v₂) where
  guid_ne := hne
  builtin_le_next := hI.builtin_le_next
  fresh := hI.fresh
  builtin := hI.builtin
  table := hI.table
  refcnt a r hr := by
    cases hact : r.active
    · simp [Thread.start_holds, hI.inactive_zero a r hr hact]
    · simp [Thread.start_holds, hI.active_one a r hr hact]
  active_entry a r hr hact hle := .inl (hI.active_entry a r hr hact hle)
  held_left a ha := by simp [Thread.start_holds] at ha
  held_right a ha := by simp [Thread.start_holds] at ha
  phase_left := Thread.start_phase s _ _ _
  phase_right := Thread.start_phase s _ _ _
  view _ _ _ := rfl

/-- Once both writes are over, the registry invariant holds again. -/
theorem WritersInv.inv (h : WritersInv m₀ s t u) (ht : t.pc = .done) (hu : u.pc = .done) :
    Inv s where
  builtin_le_next := h.builtin_le_next
  fresh := h.fresh
  builtin := h.builtin
  table := h.table
  active_one a r hr hact := by simp [h.refcnt a r hr, hact, Thread.holds, ht, hu, Pc.holdsRef]
  inactive_zero a r hr hact := by simp [h.refcnt a r hr, hact, Thread.holds, ht, hu, Pc.holdsRef]
  active_entry a r hr hact hle := by
    rcases h.active_entry a r hr hact hle with h' | h' | h'
    · exact h'
    · simp [Thread.Publishing, ht] at h'
    · simp [Thread.Publishing, hu] at h'

theorem Inv.view_register_ne (hI : Inv s) (l : CallbackList) {g g' : String} (v : Option String)
    (hne : g' ≠ g) : (s.register l g v).view g' = s.view g' := by
  rw [hI.view_register]
  rcases sscanfGuid g with ⟨n, pid, cb, h⟩
  dsimp only
  split_ifs
  · rfl
  · cases v <;> simp [Function.update_noteq hne]

/-- A settled write leaves its GUID registered as the write run alone from
the start would. -/
theorem Thread.Settled.view_eq {s₀ : Registry} (hI : Inv s₀) (h : t.Settled s)
    (hrej : ¬ GuidAccepted t.guid → s.view t.guid = s₀.view t.guid) :
    s.view t.guid = (s₀.register t.list t.guid t.value).view t.guid := by
  rw [hI.view_register]
  rcases h with hr | ⟨⟨hh, hp⟩, hv, ht⟩ | ⟨⟨hh, hp⟩, v, a, n, hv, ht, ha⟩
  · have hn : (sscanfGuid t.guid).1 ≠ 3 := hr
    rcases hq : sscanfGuid t.guid with ⟨n, pid, cb, h⟩
    rw [hq] at hn
    simp [hn, hrej hr]
  · simp [hp, hv, Registry.view, ht]
  · simp [hp, hv, Registry.view, ht, ha, CbInfo.registration]

/-! ## The two writes against the two sequential runs -/

/-- The write a thread carries out. -/
def Thread.request (t : Thread) : Write := ⟨t.list, t.guid, t.value⟩

theorem Thread.step_request {t t' : Thread} {s s' : Registry} (h : t.step s = .ok (t', s')) :
    t'.request = t.request := by
  unfold Thread.step at h
  split at h <;> simp only [bind, Except.bind, pure, Except.pure] at h <;>
    (repeat' split at h) <;> (try cases h) <;> simp_all [Thread.request]

theorem interleave_request {σ : List Bool} {t u t' u' : Thread} {s s' : Registry}
    (h : interleave σ t u s = .ok (t', u', s')) : t'.request = t.request ∧ u'.request = u.request := by
  induction σ generalizing t u s with
  | nil => cases h; exact ⟨rfl, rfl⟩
  | cons b σ ih =>
    cases b
    · obtain ⟨t₁, s₁, hst, hrun⟩ := interleave_cons_false h
      exact (ih hrun).imp_left (·.trans (Thread.step_request hst))
    · obtain ⟨u₁, s₁, hst, hrun⟩ := interleave_cons_true h
      exact (ih hrun).imp_right (·.trans (Thread.step_request hst))

theorem Thread.start_rank_le (l : CallbackList) (g : String) (v : Option String) :
    (Thread.start l g v).pc.rank ≤ 6 := by
  simp only [Thread.start_eq]; split <;> simp [Pc.rank]

theorem WritersInv.settled_left (h : WritersInv m₀ s t u) (ht : t.pc = .done) : t.Settled s := by
  simpa only [Thread.Phase, ht] using h.phase_left

/-- Two finished writes leave the registrations of the run of the first
write and then the second. -/
theorem WritersInv.view_done {s₀ : Registry} (hI : Inv s₀) (h : WritersInv s₀.view s t u)
    (ht : t.pc = .done) (hu : u.pc = .done) :
    s.view = ((s₀.register t.list t.guid t.value).register u.list u.guid u.value).view := by
  have hI₁ := hI.register t.list t.guid t.value
  have hne := h.guid_ne
  funext g
  by_cases hgu : g = u.guid
  · subst hgu
    refine (h.symm.settled_left hu).view_eq hI₁ fun hr => ?_
    rw [hI.view_register_ne _ _ hne.symm]
    exact h.view _ (fun e => absurd e hne) fun _ => hr
  · rw [hI₁.view_register_ne _ _ hgu]
    by_cases hgt : g = t.guid
    · subst hgt
      exact (h.settled_left ht).view_eq hI fun hr => h.view _ (fun _ => hr) fun e => absurd e.symm hgu
    · rw [hI.view_register_ne _ _ hgt]
      exact h.view g (fun e => absurd e.symm hgt) fun e => absurd e.symm hgu

/-- Two writes of the five kinds that share `handleCallbacksSet`, to distinct
GUIDs: no schedule faults, and once each thread has had six steps both are
over, the invariant holds, and the registrations are those the two handlers
leave run one after the other, in either order. -/
theorem distinct_guid_writes_serialisable (hs : Reachable s) (w₁ w₂ : Write)
    (hl₁ : w₁.list ≠ .proxy) (hl₂ : w₂.list ≠ .proxy) (hne : w₁.guid ≠ w₂.guid) (σ : List Bool) :
    ∃ t₁ t₂ s', interleave σ (Thread.start w₁.list w₁.guid w₁.value)
        (Thread.start w₂.list w₂.guid w₂.value) s = .ok (t₁, t₂, s') ∧
      (6 ≤ σ.count false → 6 ≤ σ.count true →
        t₁.pc = .done ∧ t₂.pc = .done ∧ Inv s' ∧
        (∃ s₁ s₂, w₁.run s = .ok (true, s₁) ∧ w₂.run s₁ = .ok (true, s₂) ∧ s'.view = s₂.view) ∧
        (∃ s₁ s₂, w₂.run s = .ok (true, s₁) ∧ w₁.run s₁ = .ok (true, s₂) ∧ s'.view = s₂.view)) := by
  have hI := hs.inv
  have h₀ : WritersInv s.view s (Thread.start w₁.list w₁.guid w₁.value)
      (Thread.start w₂.list w₂.guid w₂.value) := WritersInv.start hI hne
  obtain ⟨t₁, t₂, s', hrun, h⟩ := h₀.interleave σ
  refine ⟨t₁, t₂, s', hrun, fun h₁ h₂ => ?_⟩
  have ht₁ := (interleave_done hrun).1 ((Thread.start_rank_le _ _ _).trans h₁)
  have ht₂ := (interleave_done hrun).2 ((Thread.start_rank_le _ _ _).trans h₂)
  -- the threads still carry the two writes
  obtain ⟨rfl, rfl⟩ : t₁.request = w₁ ∧ t₂.request = w₂ := interleave_request hrun
  exact ⟨ht₁, ht₂, h.inv ht₁ ht₂,
    ⟨_, _, Write.run_of_ne_proxy hI hl₁, Write.run_of_ne_proxy (hI.register _ _ _) hl₂,
      h.view_done hI ht₁ ht₂⟩,
    ⟨_, _, Write.run_of_ne_proxy hI hl₂, Write.run_of_ne_proxy (hI.register _ _ _) hl₁,
      h.symm.view_done hI ht₂ ht₁⟩⟩

theorem distinct_guid_writes_serialisable_initial :
    ∃ s, Reachable s ∧ ∃ t₁ t₂ s', interleave
        [false, true, true, false, false, true, false, true, true, false, false, true]
        (Thread.start .watch "1-2-3" (some "/a")) (Thread.start .watch "1-2-4" none) s =
          .ok (t₁, t₂, s') ∧
      t₁.pc = .done ∧ t₂.pc = .done ∧ Inv s' ∧
      (∃ s₁ s₂, (Write.mk .watch "1-2-3" (some "/a")).run s = .ok (true, s₁) ∧
        (Write.mk .watch "1-2-4" none).run s₁ = .ok (true, s₂) ∧ s'.view = s₂.view) ∧
      (∃ s₁ s₂, (Write.mk .watch "1-2-4" none).run s = .ok (true, s₁) ∧
        (Write.mk .watch "1-2-3" (some "/a")).run s₁ = .ok (true, s₂) ∧ s'.view = s₂.view) := by
  obtain ⟨s, -, hs⟩ := reachable_configInit 0 fun _ => 0
  obtain ⟨t₁, t₂, s', hrun, hfin⟩ := distinct_guid_writes_serialisable hs
    ⟨.watch, "1-2-3", some "/a"⟩ ⟨.watch, "1-2-4", none⟩ (by decide) (by decide) (by decide)
    [false, true, true, false, false, true, false, true, true, false, false, true]
  exact ⟨s, hs, t₁, t₂, s', hrun, hfin (by decide) (by decide)⟩

end Apteryx
