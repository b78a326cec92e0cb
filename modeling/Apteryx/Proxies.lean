import Apteryx.Registrations

/-!
# Apteryx.Proxies — the proxy value and the malformed writes

`handle_proxies_set` reads `<uri>:<path>` by cutting the value at its last
`:` (`strrchr`). That recovers both parts exactly when the path has no `:`
(`proxyParts_append`, `proxy_write_splits`); a path such as
`/test/2001:db8::1/test` is cut inside itself (`proxy_colon_path_misparsed`).

Malformed writes change nothing and complete (`malformed_write_unchanged`,
in `Apteryx.Effect`), except a URL under a rejected GUID: there
`handle_proxies_set` reads `cb->uri` through the `NULL` `update_callback`
returned (`proxy_rejected_guid_faults`).
-/

namespace Apteryx

open Registry

variable {s : Registry}

/-! ## Splitting `<uri>:<path>` -/

theorem strrchr_append_of_not_mem {p : List Char} {c : Char} (hp : c ∉ p) :
    ∀ l : List Char, strrchr (l ++ c :: p) c = some l.length
  | [] => by simp [strrchr, (strrchr_eq_none_iff p c).mpr hp]
  | x :: xs => by simp [strrchr, strrchr_append_of_not_mem hp xs]

/-- The split at the last `:` recovers `<uri>` and `<path>` from `<uri>:<path>`
when the path has no `:`. -/
theorem proxyParts_append {u p : String} (hp : ':' ∉ p.toList) :
    proxyParts (u ++ ":" ++ p) = some (u, p) := by
  obtain ⟨u⟩ := u
  obtain ⟨p⟩ := p
  have hl : (String.mk u ++ ":" ++ String.mk p).toList = u ++ ':' :: p := by
    simp [String.toList, String.data_append]
  have hp' : ':' ∉ p := hp
  simp only [proxyParts, hl, strrchr_append_of_not_mem hp', Option.map_some', Option.some.injEq,
    Prod.mk.injEq, String.drop_eq, String.take_eq, String.length_mk]
  have h1 : ":".length = 1 := rfl
  constructor <;> apply String.ext <;> simp [String.data_append, h1]

theorem ProxyUrl.append {u : String} (hu : ProxyUrl u) (t : String) : ProxyUrl (u ++ t) := by
  have hl : (u ++ t).toList = u.toList ++ t.toList := String.data_append u t
  simp only [ProxyUrl, Bool.or_eq_true, List.isPrefixOf_iff_prefix, hl] at hu ⊢
  exact hu.imp (·.trans (List.prefix_append _ _)) (·.trans (List.prefix_append _ _))

/-- A proxy value `<uri>:<path>` whose path has no `:` registers that URI
and that path under the GUID. -/
theorem proxy_write_splits (hs : Reachable s) {g u p : String} (hg : GuidAccepted g)
    (hu : ProxyUrl u) (hp : ':' ∉ p.toList) :
    ∃ s' a r, (Write.mk .proxy g (some (u ++ ":" ++ p))).run s = .ok (true, s') ∧
      s'.guidToCallback g = some a ∧ s'.heap a = some r ∧ r.active ∧ r.list = .proxy ∧
      r.uri = some u ∧ r.path = p := by
  obtain ⟨pid, cb, _, hpid⟩ := guidAccepted_iff.mp hg
  have hv : ProxyUrl (u ++ ":" ++ p) := (hu.append ":").append p
  have h : (Write.mk .proxy g (some (u ++ ":" ++ p))).run s =
      .ok (true, (s.unregister g).install .proxy g p (some u) pid cb) := by
    rw [Write.run_eq _ (hs.inv.entryLive _)]
    simp [Write.effect, hv, proxyParts_append hp, hpid]
  exact ⟨_, s.next, ⟨true, .proxy, g, p, some u, pid, cb, 1⟩, h, by simp,
    by simp [Function.update_apply], rfl, rfl, rfl, rfl⟩

theorem proxy_write_splits_initial :
    ∃ s s' a r, Reachable s ∧
      (Write.mk .proxy "1-2-3" (some ("tcp://127.0.0.1:9999" ++ ":" ++ "/test/remote/*"))).run s =
        .ok (true, s') ∧ s'.guidToCallback "1-2-3" = some a ∧ s'.heap a = some r ∧ r.active ∧
      r.list = .proxy ∧ r.uri = some "tcp://127.0.0.1:9999" ∧ r.path = "/test/remote/*" := by
  obtain ⟨s, -, hs⟩ := reachable_configInit 0 fun _ => 0
  obtain ⟨s', a, r, h⟩ := proxy_write_splits (g := "1-2-3") (u := "tcp://127.0.0.1:9999")
    (p := "/test/remote/*") hs (by decide) (by decide) (by decide)
  exact ⟨s, s', a, r, hs, h⟩

set_option maxRecDepth 8000 in
/-- A path with a `:` is cut at its own last `:`: the URI takes the head of
the path and the pattern keeps only its tail. -/
theorem proxy_colon_path_misparsed :
    (do
      let s₀ ← configInit 0 fun _ => 0
      let (_, s₁) ← (Write.mk .proxy "1-2-3"
        (some ("tcp://127.0.0.1:9999" ++ ":" ++ "/test/2001:db8::1/test"))).run s₀
      pure ((s₁.heap 11).map fun r => (r.uri, r.path))) =
    Except.ok (some (some "tcp://127.0.0.1:9999:/test/2001:db8:", "1/test")) := by
  rfl

/-! ## Proxy values under a rejected GUID -/

/-- `handle_proxies_set` dereferences the `NULL` that `update_callback`
returns for a GUID it rejects. -/
theorem proxy_rejected_guid_faults :
    (do
      let s₀ ← configInit 0 fun _ => 0
      (Write.mk .proxy "zz" (some "tcp://127.0.0.1:9999:/test/remote/*")).run s₀) =
    Except.error .nullDeref := by
  rfl

end Apteryx
