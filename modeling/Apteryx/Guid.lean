import Mathlib.Data.List.Basic
import Mathlib.Data.Nat.Digits

/-!
# Apteryx.Guid — the GUID parse of `update_callback`

A registration is addressed by the last segment of its configuration path,
`/apteryx/<kind>/<guid>`. `update_callback` reads the three numbers the GUID
encodes with

    sscanf (guid, "%" PRIX64 "-%" PRIx64 "-%" PRIx64 "", &pid, &callback, &hash)

and refuses the write unless all three conversions match. This module models
that call as glibc performs it on a 64-bit target: each `%lx` skips white
space, takes an optional sign and an optional `0x`, reads hex digits into a
buffer and hands it to `strtoul`, which saturates on overflow and negates
modulo `2^64` after a `-`. Trailing text after the third number is ignored.

The parse is not injective (`01-2-3` and `1-2-3` carry the same triple), which
is why the registry, keyed by the GUID string, is not keyed by the triple; it
is the inverse of the hex encoding the spec describes, so on encoded GUIDs
string and triple determine each other.
-/

namespace Apteryx

/-- `isspace` in the C locale. -/
def isSpace (c : Char) : Bool :=
  c = ' ' || c = '\t' || c = '\n' || c = '\x0b' || c = '\x0c' || c = '\r'

/-- `isxdigit`. -/
def isXDigit (c : Char) : Bool :=
  c.isDigit || ('a' ≤ c && c ≤ 'f') || ('A' ≤ c && c ≤ 'F')

/-- The value of one hex digit. -/
def hexDigitVal (c : Char) : Nat :=
  if c.isDigit then c.toNat - '0'.toNat
  else if 'a' ≤ c ∧ c ≤ 'f' then c.toNat - 'a'.toNat + 10
  else c.toNat - 'A'.toNat + 10

/-- The value of a digit string, most significant digit first. -/
def hexValue (ds : List Char) : Nat :=
  ds.foldl (fun n c => 16 * n + hexDigitVal c) 0

/-- `strtoul (buf, NULL, 16)` on a 64-bit `unsigned long`: a magnitude past
`ULONG_MAX` saturates, otherwise a leading `-` negates modulo `2^64`. -/
def strtoulValue (neg : Bool) (n : Nat) : UInt64 :=
  if UInt64.size ≤ n then UInt64.ofNat (UInt64.size - 1)
  else if neg then 0 - UInt64.ofNat n else UInt64.ofNat n

/-- The outcome of one conversion: input exhausted before it started (`EOF`),
a matching failure, or a value and the unread input. -/
inductive ScanStep
  | eof
  | fail
  | ok (v : UInt64) (rest : List Char)
  deriving DecidableEq, Repr

/-- The optional `0x` of a `%x` conversion. A leading `0` goes into the digit
buffer, so the conversion succeeds on it even when no digit follows the `x`. -/
def scanZeroX : List Char → Bool × List Char
  | '0' :: x :: rest => if x = 'x' ∨ x = 'X' then (true, rest) else (true, x :: rest)
  | ['0'] => (true, [])
  | cs => (false, cs)

/-- One `%lx` (or `%lX`) conversion of glibc's `sscanf`. -/
def scanHex (cs : List Char) : ScanStep :=
  match cs.dropWhile isSpace with
  | [] => .eof
  | c :: rest =>
    let (neg, cs) :=
      if c = '-' then (true, rest) else if c = '+' then (false, rest) else (false, c :: rest)
    let (zero, cs) := scanZeroX cs
    let digits := cs.takeWhile isXDigit
    if digits.isEmpty && !zero then .fail
    else .ok (strtoulValue neg (hexValue digits)) (cs.dropWhile isXDigit)

/-- `sscanf (guid, "%" PRIX64 "-%" PRIx64 "-%" PRIx64 "", &pid, &callback, &hash)`:
the number of conversions matched (`EOF` is `-1`) and `pid`, `callback`,
`hash`. Fields the call does not reach are left at `0`; the code reads them
only when all three matched. -/
def sscanfGuid (guid : String) : Int × UInt64 × UInt64 × UInt64 :=
  match scanHex guid.toList with
  | .eof => (-1, 0, 0, 0)
  | .fail => (0, 0, 0, 0)
  | .ok pid ('-' :: rest) =>
    match scanHex rest with
    | .ok callback ('-' :: rest) =>
      match scanHex rest with
      | .ok hash _ => (3, pid, callback, hash)
      | _ => (2, pid, callback, 0)
    | .ok callback _ => (2, pid, callback, 0)
    | _ => (1, pid, 0, 0)
  | .ok pid _ => (1, pid, 0, 0)

/-- `update_callback` goes past its first check exactly for these GUIDs. -/
def GuidAccepted (guid : String) : Prop :=
  (sscanfGuid guid).1 = 3

instance (guid : String) : Decidable (GuidAccepted guid) :=
  inferInstanceAs (Decidable ((sscanfGuid guid).1 = 3))

example : sscanfGuid "1a2b-3C4D-ff" = (3, 0x1a2b, 0x3c4d, 0xff) := by decide
example : sscanfGuid " 0x10-+2-3 trailing" = (3, 16, 2, 3) := by decide
example : sscanfGuid "12.34-5" = (1, 0x12, 0, 0) := by decide

/-! ## Encoded GUIDs

The spec calls the GUID the hex encoding of the triple. On such strings the
parse is the inverse of the encoding (`sscanfGuid_guidString`): each `%lx`
reads a numeral up to the `-` after it (`scanHex_numeral`), and
`Nat.toDigits 16` writes one (`toDigitsCore_hex`). -/

theorem hexValue_append_singleton (l : List Char) (c : Char) :
    hexValue (l ++ [c]) = 16 * hexValue l + hexDigitVal c := by
  simp [hexValue, List.foldl_append]

theorem special_ne_of_isXDigit {c : Char} (h : isXDigit c = true) :
    isSpace c = false ∧ c ≠ '-' ∧ c ≠ '+' ∧ c ≠ 'x' ∧ c ≠ 'X' := by
  refine ⟨?_, ?_, ?_, ?_, ?_⟩
  · cases hs : isSpace c
    · rfl
    simp only [isSpace, Bool.or_eq_true, decide_eq_true_eq] at hs
    rcases hs with ((((rfl | rfl) | rfl) | rfl) | rfl) | rfl <;> exact absurd h (by decide)
  all_goals rintro rfl; exact absurd h (by decide)

theorem digitChar_hex :
    ∀ d < 16, isXDigit (Nat.digitChar d) = true ∧ hexDigitVal (Nat.digitChar d) = d := by
  decide

section Numeral

variable {ds rest : List Char} (hx : ∀ c ∈ ds, isXDigit c = true) (hr : ∀ c ∈ rest.head?, c = '-')
include hx hr

theorem takeWhile_numeral : (ds ++ rest).takeWhile isXDigit = ds := by
  rw [List.takeWhile_append_of_pos hx]
  cases rest with
  | nil => simp
  | cons c r => obtain rfl := hr c rfl; exact List.append_nil ds

theorem dropWhile_numeral : (ds ++ rest).dropWhile isXDigit = rest := by
  rw [List.dropWhile_append_of_pos hx]
  cases rest with
  | nil => rfl
  | cons c r => obtain rfl := hr c rfl; rfl

/-- On a numeral followed by `-` or the end, the `0x` step consumes at most a
leading `0`, which does not change the value. -/
theorem scanZeroX_numeral (hne : ds ≠ []) :
    ∃ zero ds', scanZeroX (ds ++ rest) = (zero, ds' ++ rest) ∧ (∀ c ∈ ds', isXDigit c = true) ∧
      hexValue ds' = hexValue ds ∧ (ds' = [] → zero = true) := by
  obtain ⟨c, ds, rfl⟩ := List.exists_cons_of_ne_nil hne
  by_cases hc : c = '0'
  · subst hc
    refine ⟨true, ds, ?_, fun c h => hx c (List.mem_cons_of_mem _ h), rfl, fun _ => rfl⟩
    rw [List.cons_append]
    cases h : ds ++ rest with
    | nil => rfl
    | cons x r =>
      have hxx : x ≠ 'x' ∧ x ≠ 'X' := by
        cases ds with
        | nil => simp at h; subst h; obtain rfl := hr x rfl; decide
        | cons d ds =>
          simp only [List.cons_append, List.cons.injEq] at h
          obtain ⟨rfl, -⟩ := h
          exact (special_ne_of_isXDigit (hx d (by simp))).2.2.2
      simp [scanZeroX, hxx]
  · refine ⟨false, c :: ds, ?_, hx, rfl, by simp⟩
    cases ds <;> simp [scanZeroX, hc]

/-- One `%lx` conversion reads a hex numeral up to the `-` or the end that
follows it. -/
theorem scanHex_numeral (hne : ds ≠ []) (hlt : hexValue ds < UInt64.size) :
    scanHex (ds ++ rest) = .ok (UInt64.ofNat (hexValue ds)) rest := by
  obtain ⟨zero, ds', hz, hx', hv, hnil⟩ := scanZeroX_numeral hx hr hne
  obtain ⟨c, ds₀, rfl⟩ := List.exists_cons_of_ne_nil hne
  obtain ⟨hsp, hm, hp, -, -⟩ := special_ne_of_isXDigit (hx c (List.mem_cons_self _ _))
  have hcond : (ds'.isEmpty && !zero) = false := by
    cases ds' with
    | nil => simp [hnil rfl]
    | cons => rfl
  have hd : (c :: (ds₀ ++ rest)).dropWhile isSpace = c :: (ds₀ ++ rest) :=
    List.dropWhile_cons_of_neg (by simp [hsp])
  rw [List.cons_append] at hz
  simp only [scanHex, List.cons_append, hd, hm, hp, if_false, hz, takeWhile_numeral hx' hr,
    dropWhile_numeral hx' hr, hcond, strtoulValue, hv, Nat.not_le.mpr hlt, Bool.false_eq_true]

end Numeral

/-- `Nat.toDigits 16` writes a hex numeral of its argument. -/
theorem toDigitsCore_hex : ∀ (fuel n : Nat) (ds : List Char), n < fuel →
    ∃ l, Nat.toDigitsCore 16 fuel n ds = l ++ ds ∧ l ≠ [] ∧ (∀ c ∈ l, isXDigit c = true) ∧
      hexValue l = n
  | 0, n, _, h => absurd h (Nat.not_lt_zero n)
  | fuel + 1, n, ds, h => by
    have hd := digitChar_hex (n % 16) (Nat.mod_lt _ (by decide))
    by_cases hn : n / 16 = 0
    · refine ⟨[Nat.digitChar (n % 16)], by simp [Nat.toDigitsCore, hn], by simp,
        by simpa using hd.1, ?_⟩
      simp only [hexValue, List.foldl, hd.2]
      omega
    · obtain ⟨l, hl, -, hx, hv⟩ :=
        toDigitsCore_hex fuel (n / 16) (Nat.digitChar (n % 16) :: ds) (by omega)
      refine ⟨l ++ [Nat.digitChar (n % 16)], by simp [Nat.toDigitsCore, hn, hl], by simp,
        fun c hc => (List.mem_append.mp hc).elim (hx c) (by simp_all), ?_⟩
      rw [hexValue_append_singleton, hv, hd.2]
      omega

/-- Modelled from the spec: the GUID is the hex encoding of the triple
`(pid, callback, hash)`. The client that prints it is not among the sources;
this is the encoding of `printf`'s `%lx`, without padding. -/
def guidString (pid callback hash : UInt64) : String :=
  ⟨Nat.toDigits 16 pid.toNat ++
    '-' :: (Nat.toDigits 16 callback.toNat ++ '-' :: Nat.toDigits 16 hash.toNat)⟩

example : guidString 0x1a2b 0 255 = "1a2b-0-ff" := by decide

/-- `%lx` reads the hex numeral of a value back, up to the next `-`. -/
theorem scanHex_toDigits (v : UInt64) {rest : List Char} (hr : ∀ c ∈ rest.head?, c = '-') :
    scanHex (Nat.toDigits 16 v.toNat ++ rest) = .ok v rest := by
  obtain ⟨l, hl, hne, hx, hv⟩ := toDigitsCore_hex (v.toNat + 1) v.toNat [] (Nat.lt_succ_self _)
  rw [Nat.toDigits, hl, List.append_nil, scanHex_numeral hx hr hne (hv ▸ v.toNat_lt_size), hv]
  exact congrArg (ScanStep.ok · rest) (UInt64.toNat.inj (UInt64.toNat_ofNat_of_lt v.toNat_lt_size))

theorem scanHex_toDigits_nil (v : UInt64) : scanHex (Nat.toDigits 16 v.toNat) = .ok v [] := by
  simpa using @scanHex_toDigits v [] (by simp)

/-- The parse of `update_callback` reads every encoded GUID back to its triple. -/
theorem sscanfGuid_guidString (pid callback hash : UInt64) :
    sscanfGuid (guidString pid callback hash) = (3, pid, callback, hash) := by
  simp [sscanfGuid, guidString, scanHex_toDigits, scanHex_toDigits_nil]

/-- Distinct triples have distinct encodings. -/
theorem guidString_inj {pid callback hash pid' callback' hash' : UInt64}
    (h : guidString pid callback hash = guidString pid' callback' hash') :
    (pid, callback, hash) = (pid', callback', hash') := by
  have := congrArg sscanfGuid h
  simpa [sscanfGuid, guidString, scanHex_toDigits, scanHex_toDigits_nil] using this

end Apteryx
