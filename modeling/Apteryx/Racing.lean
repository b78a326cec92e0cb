import Apteryx.Interleaving

/-!
# Apteryx.Racing — two handler writes to one GUID, under every schedule

`update_callback` looks the GUID up under the read lock and updates the table
under the write lock, taken again. When the two lookups of two writes to one
GUID both run before either update, each thread goes on with what it found:

* on a registered GUID both threads hold the old record, and each owes it two
  releases (lines 104–105 and 116–117, or 135 and the handler's), four
  between them on a record that held three references: every schedule that
  gives both threads their remaining steps touches it after it was freed
  (`racing_writes_use_after_free`);
* on a GUID without an entry both threads create a record and publish it; the
  one published first is replaced in the table and stays active, with one
  reference and no entry (`racing_registrations_orphan`).

Run one after the other through their handlers, the same writes complete,
and a GUID keeps a single active record.

The proof is an Owicki–Gries argument, as in `Apteryx.Interleaving`.
`RaceInv e` is the invariant of the two threads once both lookups found `e`:
where each thread stands (`Thread.Racing`), the releases each still owes the
old record (`Thread.owed`), which exceed its reference count by one, that the
threads' own records are distinct, and, on a GUID without an entry, that the
table holds a record one of them published. `RaceInv.step` takes one case per
region; `RaceInv.interleave` runs it along any schedule, and
`interleave_lookups_some` and `interleave_lookups_none` run the two lookups
that set it up.
-/

namespace Apteryx

open Registry

/-! ## Where a racing thread stands -/

/-- The thread holds the record it created, at an address other than the old
record `e`, with `n` references. -/
def Thread.Owns (e : Option Nat) (s : Registry) (n : Nat) (t : Thread) : Prop :=
  ∃ a v, t.cb = some a ∧ e ≠ some a ∧ t.value = some v ∧
    s.heap a = some ⟨true, t.list, t.guid, v, none, t.pid, t.callback, n⟩

/-- Where a thread stands once both lookups are over and found `e` (`none`:
the GUID had no entry). -/
def Thread.Racing (e : Option Nat) (s : Registry) (t : Thread) : Prop :=
  match t.pc with
  | .find => False
  | .unlinkOld | .dropOld => e.isSome ∧ t.cb = e ∧ t.value.isSome
  | .remove => e.isSome ∧ t.cb = e ∧ t.value = none
  | .create => t.cb = e ∧ t.value.isSome
  | .publish => t.Owns e s 2
  | .release => (t.cb = e ∧ t.value = none) ∨ t.Owns e s 2
  | .done => (t.cb = e ∧ t.value = none) ∨ t.Owns e s 1

/-- The releases the thread has still to make on the old record `e`. -/
def Thread.owed (e : Option Nat) (t : Thread) : Nat :=
  match e, t.pc with
  | some _, .unlinkOld | some _, .remove => 2
  | some _, .dropOld => 1
  | some x, .release => if t.cb = some x then 1 else 0
  | _, _ => 0

/-- The thread has published the record at `a`. -/
def Thread.Published (t : Thread) (a : Nat) : Prop :=
  t.cb = some a ∧ (t.pc = .release ∨ t.pc = .done)

/-- The invariant of two writes to one GUID once both lookups found `e`. -/
structure RaceInv (e : Option Nat) (s : Registry) (t u : Thread) : Prop where
  guid : t.guid = u.guid
  fresh : ∀ a, s.next ≤ a → s.heap a = none
  shared : ∀ x, e = some x → ∃ r, s.heap x = some r ∧ r.refcnt + 1 = t.owed e + u.owed e
  left : t.Racing e s
  right : u.Racing e s
  apart : ∀ a, t.cb = some a → u.cb = some a → e = some a
  table : e = none → (∃ a, t.Published a ∨ u.Published a) →
    ∃ a, s.guidToCallback t.guid = some a ∧ (t.Published a ∨ u.Published a)

variable {e : Option Nat} {s s' : Registry} {t u : Thread}

theorem RaceInv.symm (h : RaceInv e s t u) : RaceInv e s u t where
  guid := h.guid.symm
  fresh := h.fresh
  shared x hx := by obtain ⟨r, hr, hc⟩ := h.shared x hx; exact ⟨r, hr, by omega⟩
  left := h.right
  right := h.left
  apart a ha hb := h.apart a hb ha
  table he hp := by
    obtain ⟨a, ht, hp'⟩ := h.table he (hp.imp fun _ => Or.symm)
    exact ⟨a, h.guid ▸ ht, hp'.symm⟩

theorem Thread.Owns.frame {n : Nat} (h : t.Owns e s n)
    (hh : ∀ a, t.cb = some a → e ≠ some a → s'.heap a = s.heap a) : t.Owns e s' n := by
  obtain ⟨a, v, hc, he, hv, hr⟩ := h
  exact ⟨a, v, hc, he, hv, by rw [hh a hc he, hr]⟩

/-- A step that keeps the heap at a thread's own record keeps where it stands. -/
theorem Thread.Racing.frame (h : t.Racing e s)
    (hh : ∀ a, t.cb = some a → e ≠ some a → s'.heap a = s.heap a) : t.Racing e s' := by
  unfold Thread.Racing at h ⊢
  split at h
  all_goals first | exact h | exact h.frame hh | exact h.imp_right (·.frame hh)

theorem Thread.Racing.cb (h : t.Racing e s) : t.cb = e ∨ ∃ n, t.Owns e s n := by
  unfold Thread.Racing at h
  split at h
  all_goals first | exact h.elim | exact .inl h.2.1 | exact .inl h.1 | exact .inr ⟨_, h⟩ |
    exact h.imp (·.1) (⟨_, ·⟩)

/-- A finished write of a value holds the record it created, with the tree's
reference only. -/
theorem Thread.Racing.owns_of_done (h : t.Racing e s) (hd : t.pc = .done) (hv : t.value.isSome) :
    t.Owns e s 1 := by
  simp only [Thread.Racing, hd] at h
  exact h.resolve_left fun ⟨_, hv'⟩ => by simp [hv'] at hv

/-- Whatever a thread points at is allocated. -/
theorem RaceInv.cb_live (h : RaceInv e s t u) {a : Nat} (ha : t.cb = some a) :
    ∃ r, s.heap a = some r := by
  rcases h.left.cb with hc | ⟨n, a', v, hc, -, -, hr⟩
  · obtain ⟨r, hr, -⟩ := h.shared a (hc ▸ ha)
    exact ⟨r, hr⟩
  · rw [ha] at hc; cases hc
    exact ⟨_, hr⟩

theorem RaceInv.lt_next (h : RaceInv e s t u) {a : Nat} {r : CbInfo} (hr : s.heap a = some r) :
    a < s.next :=
  Nat.lt_of_not_le fun hle => by simp [h.fresh a hle] at hr

/-- A step of `t` that leaves the other thread's record alone keeps its
place; the rest of the invariant is the step's own. -/
theorem RaceInv.step_of (h : RaceInv e s t u) {t' : Thread} (hg : t'.guid = t.guid)
    (hframe : ∀ a, u.cb = some a → e ≠ some a → s'.heap a = s.heap a)
    (fresh : ∀ a, s'.next ≤ a → s'.heap a = none)
    (shared : ∀ x, e = some x → ∃ r, s'.heap x = some r ∧ r.refcnt + 1 = t'.owed e + u.owed e)
    (left : t'.Racing e s') (apart : ∀ a, t'.cb = some a → u.cb = some a → e = some a)
    (table : e = none → (∃ a, t'.Published a ∨ u.Published a) →
      ∃ a, s'.guidToCallback t'.guid = some a ∧ (t'.Published a ∨ u.Published a)) :
    RaceInv e s' t' u :=
  ⟨hg.trans h.guid, fresh, shared, left, h.right.frame hframe, apart, table⟩

/-- A step that drops one reference on the old record, and leaves the rest of
the heap, the thread's `cb` and the thread's publication as they were. -/
theorem RaceInv.release_shared (h : RaceInv e s t u) {x : Nat} (hx : e = some x) {r : CbInfo}
    (hr : s.heap x = some r) (r' : CbInfo) (hr' : r'.refcnt = r.refcnt - 1) (hc : r.refcnt ≠ 0) {t' : Thread}
    (hheap : s'.heap = Function.update s.heap x (some r')) (hnext : s'.next = s.next)
    (hg : t'.guid = t.guid) (hcb : t'.cb = t.cb) (howed : t'.owed e + 1 = t.owed e)
    (left : t'.Racing e s') : RaceInv e s' t' u := by
  have hlt := h.lt_next hr
  refine h.step_of hg (fun a _ hne => ?_) (fun a ha => ?_) (fun x' hx' => ?_) left
    (fun a ha hb => h.apart a (hcb ▸ ha) hb) (fun hn => absurd (hx ▸ hn) (by simp))
  · rw [hheap, Function.update_noteq fun hax => hne (by rw [hax]; exact hx)]
  · rw [hheap, Function.update_noteq (by omega)]; exact h.fresh a (by omega)
  · rw [hx] at hx'; cases hx'
    obtain ⟨r₀, hr₀, hsum⟩ := h.shared x hx
    rw [hr] at hr₀; cases hr₀
    exact ⟨r', by simp [hheap], by omega⟩

/-! ## One step per region -/

/-- One step of `t` from the invariant: a fault on the freed old record, or
the invariant again. -/
def RaceStep (e : Option Nat) (s : Registry) (t u : Thread) : Prop :=
  (∃ t' s', t.step s = .ok (t', s') ∧ RaceInv e s' t' u) ∨
    (t.step s = .error .useAfterFree ∧ e.isSome)

/-- Lines 102–106 and 132–136 on the old record: unlink, disable, release. -/
theorem RaceInv.step_unlink (h : RaceInv e s t u) {x : Nat} (hx : e = some x) (q : Pc)
    (hstep : t.step s = Prod.mk { t with pc := q } <$> unlinkCallback x s)
    (howed : ({ t with pc := q } : Thread).owed e + 1 = t.owed e)
    (left : ∀ s', ({ t with pc := q } : Thread).Racing e s') : RaceStep e s t u := by
  obtain ⟨r, hr, -⟩ := h.shared x hx
  by_cases hc : r.refcnt = 0
  · exact .inr ⟨by simp [hstep, unlinkCallback, deref_of_freed hr hc], by simp [hx]⟩
  · exact .inl ⟨{ t with pc := q },
      (s.store x { r with active := false, refcnt := r.refcnt - 1 }).tableRemove r.guid,
      by rw [hstep, unlinkCallback_of_live hr hc]; rfl,
      h.release_shared hx hr { r with active := false, refcnt := r.refcnt - 1 } rfl hc (by simp) rfl
        rfl rfl howed (left _)⟩

theorem RaceInv.step_unlinkOld (h : RaceInv e s t u) (hpc : t.pc = .unlinkOld) : RaceStep e s t u := by
  have hph := h.left
  simp only [Thread.Racing, hpc] at hph
  obtain ⟨hsome, hcb, hv⟩ := hph
  obtain ⟨x, rfl⟩ := Option.isSome_iff_exists.mp hsome
  exact h.step_unlink rfl .dropOld (by simp [Thread.step, hpc, hcb]) (by simp [Thread.owed, hpc])
    fun _ => by simp [Thread.Racing, hcb, hv]

theorem RaceInv.step_remove (h : RaceInv e s t u) (hpc : t.pc = .remove) : RaceStep e s t u := by
  have hph := h.left
  simp only [Thread.Racing, hpc] at hph
  obtain ⟨hsome, hcb, hv⟩ := hph
  obtain ⟨x, rfl⟩ := Option.isSome_iff_exists.mp hsome
  exact h.step_unlink rfl .release (by simp [Thread.step, hpc, hcb]) (by simp [Thread.owed, hpc, hcb])
    fun _ => by simp [Thread.Racing, hcb, hv]

/-- Lines 116–117: the second `cb_disable` and `cb_release` of the old record. -/
theorem RaceInv.step_dropOld (h : RaceInv e s t u) (hpc : t.pc = .dropOld) : RaceStep e s t u := by
  have hph := h.left
  simp only [Thread.Racing, hpc] at hph
  obtain ⟨hsome, hcb, hv⟩ := hph
  obtain ⟨x, rfl⟩ := Option.isSome_iff_exists.mp hsome
  obtain ⟨r, hr, -⟩ := h.shared x rfl
  by_cases hc : r.refcnt = 0
  · exact .inr ⟨by simp [Thread.step, hpc, hcb, cbDisable, deref_of_freed hr hc], rfl⟩
  · refine .inl ⟨{ t with pc := .create }, s.store x { r with active := false, refcnt := r.refcnt - 1 },
      ?_, h.release_shared rfl hr { r with active := false, refcnt := r.refcnt - 1 } rfl hc (by simp) rfl rfl rfl (by simp [Thread.owed, hpc])
        (by simp [Thread.Racing, hcb, hv])⟩
    have hrel : cbRelease (some x) (s.store x { r with active := false }) =
        .ok ((s.store x { r with active := false }).store x
          { r with active := false, refcnt := r.refcnt - 1 }) :=
      cbRelease_of_live (r := { r with active := false }) (by simp) hc
    simp [Thread.step, hpc, hcb, cbDisable_of_live hr hc, hrel, bind, Except.bind, pure, Except.pure]

/-- `cb_create`: a fresh record, with the tree's reference and the thread's. -/
theorem RaceInv.step_create (h : RaceInv e s t u) (hpc : t.pc = .create) : RaceStep e s t u := by
  have hph := h.left
  simp only [Thread.Racing, hpc] at hph
  obtain ⟨hcb, hv⟩ := hph
  obtain ⟨v, hv⟩ := Option.isSome_iff_exists.mp hv
  have hlive : ∀ a r, s.heap a = some r → a ≠ s.next := fun a r hr => Nat.ne_of_lt (h.lt_next hr)
  have hne : e ≠ some s.next := fun he => by
    obtain ⟨r, hr, -⟩ := h.shared _ he
    exact hlive _ r hr rfl
  refine .inl ⟨{ t with cb := some s.next, pc := .publish },
    s.alloc ⟨true, t.list, t.guid, v, none, t.pid, t.callback, 2⟩,
    by simp [Thread.step, hpc, hv, cbCreate, ok_eq_pure], ?_⟩
  refine h.step_of rfl (fun a ha _ => ?_) (fun a ha => ?_) (fun x hx => ?_)
    ⟨s.next, v, rfl, hne, hv, by simp⟩ (fun a ha hb => ?_) (fun hn hp => ?_)
  · obtain ⟨r, hr⟩ := h.symm.cb_live ha
    simp [Function.update_noteq (hlive a r hr)]
  · simp at ha
    simp [Function.update_noteq (show a ≠ s.next by omega), h.fresh a (by omega)]
  · obtain ⟨r, hr, hsum⟩ := h.shared x hx
    subst hx
    exact ⟨r, by simp [Function.update_noteq (hlive x r hr), hr],
      by simpa [Thread.owed, hpc] using hsum⟩
  · cases ha
    obtain ⟨r, hr⟩ := h.symm.cb_live hb
    exact absurd rfl (hlive _ r hr)
  · obtain ⟨a, ha⟩ := hp
    have hu : u.Published a := ha.resolve_left fun ⟨_, hp'⟩ => by simp at hp'
    obtain ⟨a', ht, hp'⟩ := h.table hn ⟨a, .inr hu⟩
    exact ⟨a', by simpa using ht, .inr (hp'.resolve_left fun ⟨_, hp''⟩ => by simp [hpc] at hp'')⟩

/-- Lines 122–124: the created record becomes the GUID's entry. -/
theorem RaceInv.step_publish (h : RaceInv e s t u) (hpc : t.pc = .publish) : RaceStep e s t u := by
  have hph := h.left
  simp only [Thread.Racing, hpc] at hph
  obtain ⟨a, v, hcb, hne, hv, hr⟩ := hph
  refine .inl ⟨{ t with pc := .release }, s.tableReplace t.guid a,
    by simp [Thread.step, hpc, hcb, deref, hr, ok_eq_pure], ?_⟩
  refine h.step_of rfl (fun _ _ _ => rfl) h.fresh (fun x hx => ?_) (Or.inr ⟨a, v, hcb, hne, hv, hr⟩)
    h.apart (fun _ _ => ⟨a, by simp, .inl ⟨hcb, .inl rfl⟩⟩)
  obtain ⟨r, hr', hsum⟩ := h.shared x hx
  subst hx
  have hax : a ≠ x := fun hax => hne (by rw [hax])
  exact ⟨r, hr', by simpa [Thread.owed, hpc, hcb, hax] using hsum⟩

/-- The handler's `cb_release`: of the old record after a `NULL` write, of the
created one otherwise. -/
theorem RaceInv.step_release (h : RaceInv e s t u) (hpc : t.pc = .release) : RaceStep e s t u := by
  have hph := h.left
  simp only [Thread.Racing, hpc] at hph
  rcases hph with ⟨hcb, hv⟩ | ⟨a, v, hcb, hne, hv, hr⟩
  · cases e with
    | none =>
      refine .inl ⟨{ t with pc := .done }, s, by simp [Thread.step, hpc, hcb, ok_eq_pure], ?_⟩
      refine h.step_of rfl (fun _ _ _ => rfl) h.fresh (fun x hx => by cases hx) (Or.inl ⟨hcb, hv⟩)
        (fun a ha => by simp [hcb] at ha) (fun hn hp => ?_)
      obtain ⟨a, ha⟩ := hp
      have hu : u.Published a := ha.resolve_left fun ⟨hc, _⟩ => by simp [hcb] at hc
      obtain ⟨a', ht, hp'⟩ := h.table rfl ⟨a, .inr hu⟩
      exact ⟨a', ht, .inr (hp'.resolve_left fun ⟨hc, _⟩ => by simp [hcb] at hc)⟩
    | some x =>
      obtain ⟨r, hr, -⟩ := h.shared x rfl
      by_cases hc : r.refcnt = 0
      · exact .inr ⟨by simp [Thread.step, hpc, hcb, cbRelease, deref_of_freed hr hc], rfl⟩
      · exact .inl ⟨{ t with pc := .done }, s.store x { r with refcnt := r.refcnt - 1 },
          by simp [Thread.step, hpc, hcb, cbRelease_of_live hr hc, ok_eq_pure],
          h.release_shared rfl hr { r with refcnt := r.refcnt - 1 } rfl hc (by simp) rfl rfl rfl
            (by simp [Thread.owed, hpc, hcb]) (Or.inl ⟨hcb, hv⟩)⟩
  · have hlt := h.lt_next hr
    refine .inl ⟨{ t with pc := .done }, s.store a ⟨true, t.list, t.guid, v, none, t.pid, t.callback, 1⟩,
      by simp [Thread.step, hpc, hcb, cbRelease_of_live hr (by simp), ok_eq_pure], ?_⟩
    refine h.step_of rfl (fun b hb hb' => ?_) (fun b hb => ?_) (fun x hx => ?_)
      (Or.inr ⟨a, v, hcb, hne, hv, by simp⟩) h.apart (fun hn _ => ?_)
    · have hba : b ≠ a := fun hba => hb' (h.apart b (hba ▸ hcb) hb)
      simp [Function.update_noteq hba]
    · simp at hb
      simp [Function.update_noteq (show b ≠ a by omega), h.fresh b hb]
    · obtain ⟨r, hr', hsum⟩ := h.shared x hx
      subst hx
      have hxa : x ≠ a := fun hxa => hne (by rw [hxa])
      exact ⟨r, by simp [Function.update_noteq hxa, hr'],
        by simpa [Thread.owed, hpc, hcb, Ne.symm hxa] using hsum⟩
    · obtain ⟨a', ht, hp'⟩ := h.table hn ⟨a, .inl ⟨hcb, .inl hpc⟩⟩
      exact ⟨a', by simpa using ht, hp'.imp_left fun ⟨hc, _⟩ => ⟨hc, .inr rfl⟩⟩

/-- One step of either racing thread: a use after free of the old record, or
the invariant again. -/
theorem RaceInv.step (h : RaceInv e s t u) : RaceStep e s t u := by
  cases hpc : t.pc
  · exact absurd h.left (by simp [Thread.Racing, hpc])
  · exact h.step_unlinkOld hpc
  · exact h.step_dropOld hpc
  · exact h.step_create hpc
  · exact h.step_publish hpc
  · exact h.step_remove hpc
  · exact h.step_release hpc
  · exact .inl ⟨t, s, by cases t; cases hpc; simp [Thread.step, ok_eq_pure], h⟩

/-! ## Runs -/

/-- Any schedule from the invariant: a use after free of the old record, or
the invariant at the end. -/
theorem RaceInv.interleave (σ : List Bool) (h : RaceInv e s t u) :
    (∃ t' u' s', interleave σ t u s = .ok (t', u', s') ∧ RaceInv e s' t' u') ∨
      (interleave σ t u s = .error .useAfterFree ∧ e.isSome) := by
  induction σ generalizing s t u with
  | nil => exact .inl ⟨t, u, s, rfl, h⟩
  | cons b σ ih =>
    cases b
    · rcases h.step with ⟨t', s', hst, h'⟩ | ⟨hst, he⟩
      · rw [Apteryx.interleave, hst]; exact ih h'
      · exact .inr ⟨by rw [Apteryx.interleave, hst]; rfl, he⟩
    · rcases h.symm.step with ⟨u', s', hst, h'⟩ | ⟨hst, he⟩
      · rw [Apteryx.interleave, hst]; exact ih h'.symm
      · exact .inr ⟨by rw [Apteryx.interleave, hst]; rfl, he⟩

/-! ## The two lookups -/

theorem Thread.step_find_some (hpc : t.pc = .find) {a : Nat} {r : CbInfo}
    (ht : s.guidToCallback t.guid = some a) (hr : s.heap a = some r) (hc : r.refcnt ≠ 0) :
    t.step s = .ok ({ t with cb := some a, pc := afterFind (some a) t.value },
      s.store a { r with refcnt := r.refcnt + 1 }) := by
  simp [Thread.step, hpc, findCallback_of_some ht hr hc]

theorem Thread.step_find_none (hpc : t.pc = .find) (ht : s.guidToCallback t.guid = none) :
    t.step s = .ok ({ t with cb := none, pc := afterFind none t.value }, s) := by
  simp [Thread.step, hpc, findCallback_of_none ht]

/-- Both lookups first, in either order, on an entry: each thread takes a
reference on it. -/
theorem interleave_lookups_some (hpt : t.pc = .find) (hpu : u.pc = .find) (hg : t.guid = u.guid)
    {a : Nat} {r : CbInfo} (ht : s.guidToCallback t.guid = some a) (hr : s.heap a = some r)
    (hc : r.refcnt ≠ 0) (b : Bool) (τ : List Bool) :
    interleave (b :: (!b) :: τ) t u s =
      interleave τ { t with cb := some a, pc := afterFind (some a) t.value }
        { u with cb := some a, pc := afterFind (some a) u.value }
        (s.store a { r with refcnt := r.refcnt + 2 }) := by
  have hu : s.guidToCallback u.guid = some a := hg ▸ ht
  cases b
  · rw [Apteryx.interleave, Thread.step_find_some hpt ht hr hc]
    simp only [bind, Except.bind, Bool.not_false]
    rw [Apteryx.interleave, Thread.step_find_some (r := { r with refcnt := r.refcnt + 1 }) hpu
      (by simpa using hu) (by simp) (by simp)]
    simp [bind, Except.bind]
  · rw [Apteryx.interleave, Thread.step_find_some hpu hu hr hc]
    simp only [bind, Except.bind, Bool.not_true]
    rw [Apteryx.interleave, Thread.step_find_some (r := { r with refcnt := r.refcnt + 1 }) hpt
      (by simpa using ht) (by simp) (by simp)]
    simp [bind, Except.bind]

/-- Both lookups first, in either order, on a GUID without an entry. -/
theorem interleave_lookups_none (hpt : t.pc = .find) (hpu : u.pc = .find) (hg : t.guid = u.guid)
    (ht : s.guidToCallback t.guid = none) (b : Bool) (τ : List Bool) :
    interleave (b :: (!b) :: τ) t u s =
      interleave τ { t with cb := none, pc := afterFind none t.value }
        { u with cb := none, pc := afterFind none u.value } s := by
  cases b <;> simp [Apteryx.interleave, Thread.step_find_none hpt ht,
    Thread.step_find_none hpu (hg ▸ ht), bind, Except.bind]

theorem Thread.start_pc (l : CallbackList) {g : String} (hg : GuidAccepted g) (v : Option String) :
    (Thread.start l g v).pc = .find := by
  have hn : (sscanfGuid g).1 = 3 := hg
  simp [Thread.start_eq, hn]

/-! ## The two races -/

/-- Both lookups before either update, on a registered GUID, for the five
kinds that share `handleCallbacksSet`: the old record held three references
and the two threads owe it four releases between them, so every schedule
that gives both threads their remaining steps touches it after it was
freed. The same two writes run one after the other complete. -/
theorem racing_writes_use_after_free (hs : Reachable s) {g : String} (hg : GuidAccepted g)
    {e : Nat} (he : s.guidToCallback g = some e) (list : CallbackList) (hl : list ≠ .proxy)
    (v₁ v₂ : Option String) (b : Bool) (τ : List Bool) (h₁ : 5 ≤ τ.count false)
    (h₂ : 5 ≤ τ.count true) :
    interleave (b :: (!b) :: τ) (Thread.start list g v₁) (Thread.start list g v₂) s =
      .error .useAfterFree ∧
    ∃ s₁ s₂, (Write.mk list g v₁).run s = .ok (true, s₁) ∧
      (Write.mk list g v₂).run s₁ = .ok (true, s₂) := by
  have hI := hs.inv
  refine ⟨?_, _, _, Write.run_of_ne_proxy hI hl, Write.run_of_ne_proxy (hI.register _ _ _) hl⟩
  obtain ⟨-, r, hr, hact, -⟩ := hI.table g e he
  have hone := hI.active_one e r hr hact
  have hlt := hI.lt_next hr
  rw [interleave_lookups_some (t := Thread.start list g v₁) (u := Thread.start list g v₂)
    (Thread.start_pc _ hg _) (Thread.start_pc _ hg _) rfl he hr (by omega)]
  have hrace : ∀ v : Option String, (∀ s₀, Thread.Racing (some e) s₀
      { Thread.start list g v with cb := some e, pc := afterFind (some e) v }) ∧
        (afterFind (some e) v).rank ≤ 5 ∧
        Thread.owed (some e) { Thread.start list g v with cb := some e, pc := afterFind (some e) v } = 2 := by
    intro v; cases v <;> simp [Thread.Racing, Thread.owed, afterFind, Pc.rank, Thread.start_eq]
  have h₀ : RaceInv (some e) (s.store e { r with refcnt := r.refcnt + 2 })
      { Thread.start list g v₁ with cb := some e, pc := afterFind (some e) v₁ }
      { Thread.start list g v₂ with cb := some e, pc := afterFind (some e) v₂ } :=
    ⟨rfl, fun a ha => by simp [Function.update_noteq (show a ≠ e by simp at ha; omega), hI.fresh a ha],
      fun x hx => by
        cases hx
        exact ⟨{ r with refcnt := r.refcnt + 2 }, by simp, by simp [(hrace v₁).2.2, (hrace v₂).2.2, hone]⟩,
      (hrace v₁).1 _, (hrace v₂).1 _, fun _ ha _ => ha, fun hn => absurd hn (by simp)⟩
  rcases h₀.interleave τ with ⟨t', u', s', hrun, h'⟩ | ⟨hrun, -⟩
  · -- a run that let both threads finish would owe nothing to a record that is still live
    have hd := interleave_done hrun
    have ht' := hd.1 ((hrace v₁).2.1.trans h₁)
    have hu' := hd.2 ((hrace v₂).2.1.trans h₂)
    obtain ⟨r', -, hsum⟩ := h'.shared e rfl
    simp [Thread.owed, ht', hu'] at hsum
  · exact hrun

theorem racing_writes_use_after_free_watcher :
    ∃ s e, Reachable s ∧ s.guidToCallback "1-2-3" = some e ∧
      interleave (false :: true :: (List.replicate 5 false ++ List.replicate 5 true))
        (Thread.start .watch "1-2-3" (some "/b")) (Thread.start .watch "1-2-3" none) s =
        .error .useAfterFree ∧
      ∃ s₁ s₂, (Write.mk .watch "1-2-3" (some "/b")).run s = .ok (true, s₁) ∧
        (Write.mk .watch "1-2-3" none).run s₁ = .ok (true, s₂) := by
  obtain ⟨s, -, hs⟩ := reachable_configInit 0 fun _ => 0
  have hp : sscanfGuid "1-2-3" = (3, 1, 2, 3) := by decide
  have hrun : (Write.mk .watch "1-2-3" (some "/a")).run s =
      .ok (true, s.register .watch "1-2-3" (some "/a")) :=
    Write.run_of_ne_proxy hs.inv (by decide)
  have he : (s.register .watch "1-2-3" (some "/a")).guidToCallback "1-2-3" = some s.next := by
    simp [Registry.register, hp]
  exact ⟨_, _, hs.step _ hrun, he,
    racing_writes_use_after_free (hs.step _ hrun) (by decide) he .watch (by decide) _ _ false _
      (by decide) (by decide)⟩

/-- Both lookups before either `cb_create`, on a GUID without an entry: both
writes complete and leave two active records of the tree with that GUID, one
reference each, of which the table keeps only one, where the two writes run
one after the other leave one. -/
theorem racing_registrations_orphan (hs : Reachable s) {g : String} (hg : GuidAccepted g)
    (he : s.guidToCallback g = none) (list : CallbackList) (hl : list ≠ .proxy) (v₁ v₂ : String)
    (b : Bool) (τ : List Bool) (h₁ : 3 ≤ τ.count false) (h₂ : 3 ≤ τ.count true) :
    (∃ t₁ t₂ s', interleave (b :: (!b) :: τ) (Thread.start list g (some v₁))
        (Thread.start list g (some v₂)) s = .ok (t₁, t₂, s') ∧
      ∃ a₁ a₂ r₁ r₂, a₁ ≠ a₂ ∧ s'.heap a₁ = some r₁ ∧ s'.heap a₂ = some r₂ ∧
        r₁.active ∧ r₂.active ∧ r₁.list = list ∧ r₂.list = list ∧ r₁.guid = g ∧ r₂.guid = g ∧
        r₁.refcnt = 1 ∧ r₂.refcnt = 1 ∧ s'.guidToCallback g = some a₂) ∧
    (∃ s₁ s₂, (Write.mk list g (some v₁)).run s = .ok (true, s₁) ∧
      (Write.mk list g (some v₂)).run s₁ = .ok (true, s₂) ∧
      ∃ a, s₂.guidToCallback g = some a ∧
        ∀ a' r, s₂.heap a' = some r → r.active → r.guid = g → a' = a) := by
  have hI := hs.inv
  refine ⟨?_, ?_⟩
  · rw [interleave_lookups_none (t := Thread.start list g (some v₁)) (u := Thread.start list g (some v₂))
      (Thread.start_pc _ hg _) (Thread.start_pc _ hg _) rfl he]
    have hrace : ∀ v : String, (∀ s₀, Thread.Racing none s₀
        { Thread.start list g (some v) with cb := none, pc := afterFind none (some v) }) ∧
        (afterFind none (some v)).rank ≤ 3 := fun v => by
      simp [Thread.Racing, afterFind, Pc.rank, Thread.start_eq]
    have h₀ : RaceInv none s
        { Thread.start list g (some v₁) with cb := none, pc := afterFind none (some v₁) }
        { Thread.start list g (some v₂) with cb := none, pc := afterFind none (some v₂) } :=
      ⟨rfl, hI.fresh, (fun x hx => by cases hx), (hrace v₁).1 _, (hrace v₂).1 _,
        (fun a ha => by cases ha), fun _ ⟨a, ha⟩ => by simp [Thread.Published, afterFind] at ha⟩
    rcases h₀.interleave τ with ⟨t', u', s', hrun, h'⟩ | ⟨-, hsome⟩
    · have hd := interleave_done hrun
      have ht' := hd.1 ((hrace v₁).2.trans h₁)
      have hu' := hd.2 ((hrace v₂).2.trans h₂)
      obtain ⟨hq₁, hq₂⟩ := interleave_request hrun
      simp only [Thread.request, Thread.start_eq, Write.mk.injEq] at hq₁ hq₂
      -- both threads end holding the record they created
      obtain ⟨a₁, w₁, hcb₁, -, -, hr₁⟩ := h'.left.owns_of_done ht' (by simp [hq₁.2.2])
      obtain ⟨a₂, w₂, hcb₂, -, -, hr₂⟩ := h'.right.owns_of_done hu' (by simp [hq₂.2.2])
      have hne : a₁ ≠ a₂ := fun h12 => by simpa using h'.apart a₁ hcb₁ (h12 ▸ hcb₂)
      obtain ⟨a, ht, hp⟩ := h'.table rfl ⟨a₁, .inl ⟨hcb₁, .inr ht'⟩⟩
      rw [hq₁.2.1] at ht
      rcases hp with ⟨hcb, -⟩ | ⟨hcb, -⟩
      · rw [hcb₁] at hcb; cases hcb
        exact ⟨t', u', s', hrun, a₂, a₁, _, _, hne.symm, hr₂, hr₁, rfl, rfl, hq₂.1, hq₁.1,
          hq₂.2.1, hq₁.2.1, rfl, rfl, ht⟩
      · rw [hcb₂] at hcb; cases hcb
        exact ⟨t', u', s', hrun, a₁, a₂, _, _, hne, hr₁, hr₂, rfl, rfl, hq₁.1, hq₂.1,
          hq₁.2.1, hq₂.2.1, rfl, rfl, ht⟩
    · cases hsome
  · have hI₁ := hI.register list g (some v₁)
    have hn : (sscanfGuid g).1 = 3 := hg
    refine ⟨_, _, Write.run_of_ne_proxy hI hl, Write.run_of_ne_proxy hI₁ hl, ?_⟩
    have hI₂ := hI₁.register list g (some v₂)
    have hent : (((s.register list g (some v₁)).register list g (some v₂))).guidToCallback g =
        some (s.register list g (some v₁)).next := by
      simp [Registry.register, hn]
    exact ⟨_, hent, fun a' r hr hact hrg => Option.some.inj
      (((hI₂.active_iff hg a').mp ⟨r, hr, hact, hrg⟩).symm.trans hent)⟩

theorem racing_registrations_orphan_initial :
    ∃ s, Reachable s ∧ s.guidToCallback "1-2-3" = none ∧
    (∃ t₁ t₂ s', interleave (true :: false :: (List.replicate 3 false ++ List.replicate 3 true))
        (Thread.start .watch "1-2-3" (some "/b")) (Thread.start .watch "1-2-3" (some "/c")) s =
        .ok (t₁, t₂, s') ∧
      ∃ a₁ a₂ r₁ r₂, a₁ ≠ a₂ ∧ s'.heap a₁ = some r₁ ∧ s'.heap a₂ = some r₂ ∧
        r₁.active ∧ r₂.active ∧ r₁.list = .watch ∧ r₂.list = .watch ∧ r₁.guid = "1-2-3" ∧
        r₂.guid = "1-2-3" ∧ r₁.refcnt = 1 ∧ r₂.refcnt = 1 ∧ s'.guidToCallback "1-2-3" = some a₂) ∧
    (∃ s₁ s₂, (Write.mk .watch "1-2-3" (some "/b")).run s = .ok (true, s₁) ∧
      (Write.mk .watch "1-2-3" (some "/c")).run s₁ = .ok (true, s₂) ∧
      ∃ a, s₂.guidToCallback "1-2-3" = some a ∧
        ∀ a' r, s₂.heap a' = some r → r.active → r.guid = "1-2-3" → a' = a) := by
  obtain ⟨s, hs0, hs⟩ := reachable_configInit 0 fun _ => 0
  rw [configInit_eq] at hs0
  cases hs0
  exact ⟨_, hs, rfl, racing_registrations_orphan hs (by decide) rfl .watch (by decide) "/b" "/c"
    true _ (by decide) (by decide)⟩

end Apteryx
