import Resettle.Proofs.Number.Numerals
import Resettle.Proofs.Scalar.Literal
import Resettle.Proofs.Scalar.Lookup
import Resettle.Proofs.Text.Trimming
import Resettle.Updates

/-!
# Ports of connections

A port is told by the host name, by a setting of its own or by the driver, in this order.  The main
statement says what each of them has to look like, that the first one that is a port in range is
taken, and that a port behind a host leaves the host as it was written.
-/

namespace Resettle

namespace HostPort

/-- A text that spells a port: decimal digits, perhaps behind a plus sign, blanks around them aside,
that denote a number in range. -/
structure Spells (cs : List Char) (n : Nat) : Prop where
  digits : ∃ ds, (Text.trim cs = ds ∨ Text.trim cs = '+' :: ds) ∧
    Php.Literal.AreDigits 10 ds ∧ Php.Literal.numberOf 10 ds = n
  inRange : n ≤ 65535

def schemes : List String :=
  ["", "http://", "https://"]

/-- A host name with a port: behind its scheme, between the first colon and the next one or the
end. -/
structure Carries (hostname : String) (n : Nat) : Prop where
  parts : ∃ scheme ∈ schemes, ∃ host port rest : List Char,
    hostname.toList = scheme.toList ++ (host ++ ':' :: (port ++ rest)) ∧
      ':' ∉ host ∧ ':' ∉ port ∧ (rest = [] ∨ rest.head? = some ':') ∧ Spells port n

variable {s : String} {n : Nat} {c : Char} {cs host port rest : List Char}

/-! ## Texts of ports -/

theorem readPort?_eq_some_iff : readPort? s = some n ↔ Spells s.toList n := by
  rw [readPort?, readNatUpTo?_eq_some_iff, readNat?_eq_some_iff (by decide)]
  exact ⟨fun h => ⟨h.1, h.2⟩, fun h => ⟨h.digits, h.inRange⟩⟩

theorem trim_eq_self (h : ∀ c ∈ cs, Text.isBlank c = false) : Text.trim cs = cs := by
  have hkept : ∀ ds : List Char, (∀ c ∈ ds, Text.isBlank c = false) →
      ds.dropWhile Text.isBlank = ds := by
    intro ds hds
    cases ds with
    | nil => rfl
    | cons d ds =>
        exact List.dropWhile_cons_of_neg (by simp [hds d List.mem_cons_self])
  rw [Text.trim, Text.trimStart, hkept cs h, Text.trimEnd, Text.dropWhileEnd,
    hkept cs.reverse fun c hc => h c (List.mem_reverse.1 hc), List.reverse_reverse]

theorem Spells.head?_ne (h : Spells port n) : port.head? ≠ some '/' := by
  intro hhead
  obtain ⟨rest, rfl⟩ := List.head?_eq_some_iff.1 hhead
  have hslash : Text.isBlank '/' = false := by decide
  have htrim : Text.trim ('/' :: rest) = '/' :: Text.trimEnd rest := by
    rw [Text.trim, Text.trimStart, List.dropWhile_cons_of_neg (by simp [hslash]), Text.trimEnd,
      Text.dropWhileEnd_cons_of_neg hslash]
    rfl
  have hdigit : ¬ Php.Literal.digitOf '/' < 10 := by decide
  obtain ⟨ds, hds | hds, hdigits, -⟩ := h.digits
  · exact hdigit (hdigits.lt '/' (by simp [← hds, htrim]))
  · rw [htrim] at hds
    exact absurd (List.cons.inj hds).1 (by decide)

theorem toList_toString (n : Nat) : (toString n).toList = Nat.toDigits 10 n := by
  rw [Nat.toString_eq_repr, Nat.toList_repr]

theorem spells_toString (h : n ≤ 65535) : Spells (toString n).toList n := by
  have hplain : ∀ c ∈ Nat.toDigits 10 n, Text.isBlank c = false := fun c hc =>
    isBlank_eq_false_of_isAlphanum (by
      have hdigit := Nat.isDigit_of_mem_toDigits (by decide) (by decide) hc
      simp [Char.isAlphanum, hdigit])
  refine ⟨⟨Nat.toDigits 10 n, .inl ?_, ?_, ?_⟩, h⟩
  · rw [toList_toString, trim_eq_self hplain]
  · exact Php.Literal.areDigits_toDigits (by decide) (by decide) n
  · exact Php.Literal.numberOf_toDigits (by decide) (by decide) n

theorem sep_notMem_toString (n : Nat) : ':' ∉ (toString n).toList := by
  rw [toList_toString]
  intro hmem
  exact absurd (Nat.isDigit_of_mem_toDigits (by decide) (by decide) hmem) (by decide)

/-! ## Host names with a port -/

/-- The scheme of a host name is taken off, if what stands behind the first colon does not look like
the end of a scheme. -/
theorem withoutScheme_of_mem {scheme : String} (hscheme : scheme ∈ schemes) (hhost : ':' ∉ host)
    (hrest : rest.head? ≠ some '/')
    (h : s.toList = scheme.toList ++ (host ++ ':' :: rest)) :
    (withoutScheme s).toList = host ++ ':' :: rest := by
  have hbare : ∀ lead tail : List Char, ':' ∉ lead →
      Text.drop? (lead ++ ':' :: '/' :: tail) (host ++ ':' :: rest) = none := by
    intro lead tail hlead
    rw [Option.eq_none_iff_forall_ne_some]
    intro more hmore
    have hcut := Text.drop?_eq_some_iff.1 hmore
    rw [List.append_assoc] at hcut
    have hsame := (Text.front_unique hhost hlead hcut).2
    exact hrest (by rw [hsame]; rfl)
  have hsecure : "https://".toList = ['h', 't', 't', 'p', 's'] ++ ':' :: '/' :: ['/'] := rfl
  have hopen : "http://".toList = ['h', 't', 't', 'p'] ++ ':' :: '/' :: ['/'] := rfl
  simp only [schemes, List.mem_cons, List.not_mem_nil, or_false] at hscheme
  unfold withoutScheme
  rw [h]
  rcases hscheme with rfl | rfl | rfl
  · have hsecure' := hbare ['h', 't', 't', 'p', 's'] ['/'] (by decide)
    have hopen' := hbare ['h', 't', 't', 'p'] ['/'] (by decide)
    rw [← hsecure] at hsecure'
    rw [← hopen] at hopen'
    simp only [String.toList_empty, List.nil_append, hsecure', hopen', h]
  · have hother :
        Text.drop? "https://".toList ("http://".toList ++ (host ++ ':' :: rest)) = none := by
      rw [hsecure, hopen]
      rfl
    simp only [hother, Text.drop?_append, String.toList_ofList]
  · simp only [Text.drop?_append, String.toList_ofList]

theorem exists_scheme (s : String) :
    ∃ scheme ∈ schemes, s.toList = scheme.toList ++ (withoutScheme s).toList := by
  unfold withoutScheme
  split
  · next rest hrest =>
      exact ⟨"https://", by simp [schemes],
        (Text.drop?_eq_some_iff.1 hrest).trans (congrArg _ String.toList_ofList.symm)⟩
  · split
    · next rest hrest =>
        exact ⟨"http://", by simp [schemes],
          (Text.drop?_eq_some_iff.1 hrest).trans (congrArg _ String.toList_ofList.symm)⟩
    · exact ⟨"", by simp [schemes], rfl⟩

/-- A host and what stands behind the colons, read off a host name without its scheme. -/
theorem ofText_of_parts (hhost : ':' ∉ host) (hport : ':' ∉ port)
    (hrest : rest = [] ∨ rest.head? = some ':')
    (h : (withoutScheme s).toList = host ++ ':' :: (port ++ rest)) :
    ofText s = ⟨String.ofList host, readPort? (String.ofList port)⟩ := by
  have hbehind : ∃ more, Text.split ':' (port ++ rest) = port :: more := by
    rcases hrest with rfl | hhead
    · exact ⟨[], by rw [List.append_nil, Text.split_of_notMem hport]⟩
    · obtain ⟨more, rfl⟩ := List.head?_eq_some_iff.1 hhead
      exact ⟨Text.split ':' more, by rw [Text.split_append_cons, Text.split_of_notMem hport]; rfl⟩
  obtain ⟨more, hmore⟩ := hbehind
  rw [ofText, h, Text.split_append_cons, Text.split_of_notMem hhost, hmore]
  rfl

theorem Carries.ofText_port (h : Carries s n) : (ofText s).port = some n := by
  obtain ⟨scheme, hscheme, host, port, rest, hcut, hhost, hport, hrest, hspells⟩ := h.parts
  have hhead : (port ++ rest).head? ≠ some '/' := by
    cases port with
    | nil =>
        rcases hrest with rfl | hrest
        · simp
        · simp [hrest]
    | cons c port => exact hspells.head?_ne
  have hplain := withoutScheme_of_mem hscheme hhost hhead hcut
  rw [ofText_of_parts hhost hport hrest hplain]
  exact readPort?_eq_some_iff.2 (by rwa [String.toList_ofList])

theorem exists_join_cons (piece : List Char) (more : List (List Char)) :
    ∃ rest, Text.join ':' (piece :: more) = piece ++ rest ∧
      (rest = [] ∨ rest.head? = some ':') := by
  cases more with
  | nil => exact ⟨[], by simp [Text.join], .inl rfl⟩
  | cons next more => exact ⟨':' :: Text.join ':' (next :: more), rfl, .inr rfl⟩

/-- The port behind a host is the one that the host name carries. -/
theorem ofText_port_eq_some_iff : (ofText s).port = some n ↔ Carries s n := by
  refine ⟨fun h => ?_, Carries.ofText_port⟩
  obtain ⟨scheme, hscheme, hcut⟩ := exists_scheme s
  have hjoin := Text.join_split ':' (withoutScheme s).toList
  have hpieces := fun piece => @Text.sep_notMem_of_mem_split ':' (withoutScheme s).toList piece
  unfold ofText at h
  cases hsplit : Text.split ':' (withoutScheme s).toList with
  | nil => simp [hsplit] at h
  | cons host pieces =>
      cases pieces with
      | nil => simp [hsplit] at h
      | cons port more =>
          rw [hsplit] at h hjoin hpieces
          obtain ⟨rest, hrest, hhead⟩ := exists_join_cons port more
          have hspells := readPort?_eq_some_iff.1 h
          rw [String.toList_ofList] at hspells
          have hbehind : (withoutScheme s).toList = host ++ ':' :: (port ++ rest) := by
            rw [← hjoin, ← hrest]
            rfl
          exact ⟨scheme, hscheme, host, port, rest, hbehind ▸ hcut,
            hpieces host List.mem_cons_self,
            hpieces port (List.mem_cons_of_mem _ List.mem_cons_self), hhead, hspells⟩

end HostPort

namespace Updates

open HostPort

variable {database : Values} {driver : ConnectionDriver} {n : Nat}

def hostname (database : Values) : String :=
  textOr database ["hostname"] "127.0.0.1"

/-- A setting that gives a port: an integer in range, or a text that spells a port. -/
inductive GivesPort : Scalar → Nat → Prop
  | int {n : Nat} (h : n ≤ 65535) : GivesPort (.int n) n
  | string {s : String} {n : Nat} (h : Spells s.toList n) : GivesPort (.string s) n

theorem explicitPort?_of_int {k : Int} (h : database.get? "port" = some (.int k)) :
    explicitPort? database = if 0 ≤ k ∧ k ≤ maxPort then some k.toNat else none := by
  rw [explicitPort?, Values.lookup_singleton, h]
  rfl

theorem explicitPort?_of_string {s : String} (h : database.get? "port" = some (.string s)) :
    explicitPort? database = readPort? s := by
  rw [explicitPort?, Values.lookup_singleton, h]
  rfl

theorem explicitPort?_eq_some_iff :
    explicitPort? database = some n ↔ ∃ v, database.get? "port" = some v ∧ GivesPort v n := by
  cases hv : database.get? "port" with
  | none =>
      rw [explicitPort?, Values.lookup_singleton, hv]
      simp
  | some v =>
      simp only [Option.some.injEq, exists_eq_left']
      cases v with
      | int k =>
          rw [explicitPort?_of_int hv]
          constructor
          · intro h
            obtain ⟨hk, hn⟩ := Option.ite_none_right_eq_some.1 h
            obtain ⟨k, rfl⟩ := Int.eq_ofNat_of_zero_le hk.1
            obtain rfl : k = n := by simpa using hn
            exact .int (Int.ofNat_le.1 hk.2)
          · intro h
            cases h with
            | int h =>
                have hk : (0 : Int) ≤ n ∧ (n : Int) ≤ maxPort :=
                  ⟨Int.natCast_nonneg n, Int.ofNat_le.2 h⟩
                rw [if_pos hk, Int.toNat_natCast]
      | string s =>
          rw [explicitPort?_of_string hv, readPort?_eq_some_iff]
          refine ⟨.string, fun h => ?_⟩
          cases h with
          | string h => exact h
      | _ =>
          rw [explicitPort?, Values.lookup_singleton, hv]
          refine iff_of_false (fun h => ?_) (fun h => ?_) <;> cases h

theorem hostPort_eq (database : Values) : hostPort database = HostPort.ofText (hostname database) :=
  rfl

theorem port_of_carries (h : Carries (hostname database) n) : port driver database = n := by
  rw [port, hostPort_eq, h.ofText_port]
  rfl

theorem hostPort_port_eq_none (h : ∀ m, ¬ Carries (hostname database) m) :
    (hostPort database).port = none := by
  rw [Option.eq_none_iff_forall_ne_some]
  exact fun m hm => h m (ofText_port_eq_some_iff.1 hm)

theorem port_of_gives (hhost : ∀ m, ¬ Carries (hostname database) m) {v : Scalar}
    (hv : database.get? "port" = some v) (h : GivesPort v n) : port driver database = n := by
  rw [port, hostPort_port_eq_none hhost, explicitPort?_eq_some_iff.2 ⟨v, hv, h⟩]
  rfl

theorem port_of_none (hhost : ∀ m, ¬ Carries (hostname database) m)
    (hnone : ∀ v m, database.get? "port" = some v → ¬ GivesPort v m) :
    port driver database = driver.defaultPort := by
  have hsetting : explicitPort? database = none := by
    rw [Option.eq_none_iff_forall_ne_some]
    intro m hm
    obtain ⟨v, hv, hgives⟩ := explicitPort?_eq_some_iff.1 hm
    exact hnone v m hv hgives
  rw [port, hostPort_port_eq_none hhost, hsetting]
  rfl

theorem GivesPort.inRange {v : Scalar} (h : GivesPort v n) : n ≤ 65535 := by
  cases h with
  | int h => exact h
  | string h => exact h.inRange

theorem port_le (driver : ConnectionDriver) (database : Values) : port driver database ≤ 65535 := by
  by_cases hhost : ∃ m, Carries (hostname database) m
  · obtain ⟨m, hm⟩ := hhost
    rw [port_of_carries hm]
    obtain ⟨_, _, _, _, _, _, _, _, _, hspells⟩ := hm.parts
    exact hspells.inRange
  by_cases hsetting : ∃ v m, database.get? "port" = some v ∧ GivesPort v m
  · obtain ⟨v, m, hv, hm⟩ := hsetting
    rw [port_of_gives (not_exists.1 hhost) hv hm]
    exact hm.inRange
  · rw [port_of_none (not_exists.1 hhost) fun v m hv hm => hsetting ⟨v, m, hv, hm⟩]
    cases driver <;> decide

/-- A host and a port in decimal, behind a scheme or none, are read back. -/
theorem ofText_written {scheme host : String} (hscheme : scheme ∈ schemes)
    (hhost : ':' ∉ host.toList) (hn : n ≤ 65535) :
    HostPort.ofText (scheme ++ host ++ ":" ++ toString n) = ⟨host, some n⟩ := by
  have hspells := spells_toString hn
  have hcut : (scheme ++ host ++ ":" ++ toString n).toList =
      scheme.toList ++ (host.toList ++ ':' :: ((toString n).toList ++ [])) := by
    simp
  have hhead : ((toString n).toList ++ []).head? ≠ some '/' := by
    rw [List.append_nil]
    exact hspells.head?_ne
  have hplain := withoutScheme_of_mem hscheme hhost hhead hcut
  rw [ofText_of_parts hhost (sep_notMem_toString n) (.inl rfl) hplain]
  have hread : readPort? (toString n) = some n := readPort?_eq_some_iff.2 hspells
  rw [String.ofList_toList, String.ofList_toList, hread]

theorem hostname_of_string {s : String} (h : database.get? "hostname" = some (.string s)) :
    hostname database = s := by
  rw [hostname, textOr, Values.lookup_singleton, h]
  rfl

/-- The port of a connection is in range, and its decimal text is what the environment gets.  A host
name of a host and a port in decimal gives both of them back, whatever else is set.  In general the
port behind the host is taken, if there is one in range; else the setting, if it is an integer in
range or a text that spells one; else the driver's own port. -/
theorem port_resolved (config database : Values) (settings : Settings) :
    let assigned := fun name => (environment config database settings).lookup name
    assigned "DB_PORT" = some (toString (port (.ofValues database) database)) ∧
    (∀ driver, port driver database ≤ 65535) ∧
    (∀ scheme ∈ schemes, ∀ host n, ':' ∉ host.toList → n ≤ 65535 →
      database.get? "hostname" = some (.string (scheme ++ host ++ ":" ++ toString n)) →
        assigned "DB_HOST" = some host ∧ ∀ driver, port driver database = n) ∧
    (∀ n, Carries (hostname database) n → ∀ driver, port driver database = n) ∧
    ((∀ m, ¬ Carries (hostname database) m) →
      (∀ v n, database.get? "port" = some v → GivesPort v n →
        ∀ driver, port driver database = n) ∧
      ((∀ v n, database.get? "port" = some v → ¬ GivesPort v n) →
        ∀ driver, port driver database = driver.defaultPort)) := by
  refine ⟨by simp [environment, List.lookup_cons], fun driver => port_le driver database, ?_,
    fun n h driver => port_of_carries h, fun hhost => ⟨?_, ?_⟩⟩
  · intro scheme hscheme host n hhost hn hname
    have hread : hostPort database = ⟨host, some n⟩ := by
      rw [hostPort_eq, hostname_of_string hname, ofText_written hscheme hhost hn]
    refine ⟨by simp [environment, List.lookup_cons, hread], fun driver => ?_⟩
    rw [port, hread]
    rfl
  · exact fun v n hv hgives driver => port_of_gives hhost hv hgives
  · exact fun hnone driver => port_of_none hhost hnone

end Updates

end Resettle
