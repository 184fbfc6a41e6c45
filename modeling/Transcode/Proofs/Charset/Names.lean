import Mathlib.Data.List.TakeWhile
import Transcode.Charset.Basic
import Transcode.Proofs.Text.CodePoints

/-!
# Charset names

A name denotes a charset when, trimmed of its blanks and lowercased, it is one of the keys the
charset is registered under. Lowercasing here is the full Unicode mapping, yet every key is
plain ASCII without a `k`, so only ASCII capitals can ever lowercase onto a key: the two other
code points whose lowercase holds ASCII are `İ`, whose lowercase keeps a combining dot, and the
Kelvin sign, whose lowercase is the `k` no key has. A name therefore matches exactly when its
trimmed form equals a key up to ASCII case.

No key is shared by two charsets, so registering the charsets in any order builds the same
lookup, and the charset a name finds is the one that owns its key.

## Main results

* `Text.toLowerCase_eq_iff`: lowercasing onto ASCII without `k` is ASCII lowercasing.
* `Text.trim_eq_of_blanks`, `Text.exists_blanks_trim`: a text is its trimmed form between
  blanks.
* `Charset.lookup_register`: the registry finds the charset registered last under a key.
* `Charset.lookup_eq_some_iff`: the charset of a name, up to ASCII case.
* `charset_names`: the contract of `forName` and `isSupported`.
-/

namespace Transcode

namespace Text

/-! ## Lowercasing onto ASCII -/

/-- The ASCII small letter of an ASCII capital, and every other ASCII code point itself. -/
theorem lowerSingle_of_lt {c : Nat} (h : c < 0x80) :
    lowerSingle c = if 0x41 ≤ c ∧ c ≤ 0x5A then c + 0x20 else c := by
  simp [lowerSingle, h]

/-- Every run lowercases outside ASCII but the Kelvin sign, a run of one, and stays within the
code points. -/
theorem lowerRuns_target : ∀ r ∈ lowerRuns,
    (0x80 ≤ r.target ∨ (r.first = r.last ∧ r.target = 0x6B)) ∧
      r.target + (r.last - r.first) ≤ 0x10FFFF := by
  decide +kernel

/-- Outside ASCII a code point lowercases outside ASCII, or to `k` (the Kelvin sign). -/
theorem lowerSingle_ge {c : Nat} (h : 0x80 ≤ c) : 0x80 ≤ lowerSingle c ∨ lowerSingle c = 0x6B := by
  unfold lowerSingle
  rw [if_neg (by omega)]
  split
  · next r hr =>
    have hMem := List.mem_of_find?_eq_some hr
    have hIn : r.first ≤ c ∧ c ≤ r.last := by
      have := List.find?_some hr
      simp only [CaseRun.contains, Bool.and_eq_true, decide_eq_true_eq] at this
      exact this.1
    rcases (lowerRuns_target r hMem).1 with hT | ⟨hOne, hT⟩ <;> omega
  · exact .inl h

/-- Lowercasing keeps a code point within `10FFFF`. -/
theorem lowerSingle_le {c : Nat} (h : c ≤ 0x10FFFF) : lowerSingle c ≤ 0x10FFFF := by
  unfold lowerSingle
  split
  · split <;> omega
  · split
    · next r hr =>
      have hIn : c ≤ r.last := by
        have := List.find?_some hr
        simp only [CaseRun.contains, Bool.and_eq_true, decide_eq_true_eq] at this
        exact this.1.2
      have := (lowerRuns_target r (List.mem_of_find?_eq_some hr)).2
      omega
    · exact h

/-- An ASCII code point lowercases alone, whatever surrounds it. -/
theorem lowerAt_of_lt {c : Nat} (h : c < 0x80) (before after : List Nat) :
    lowerAt before c after = [lowerSingle c] := by
  simp [lowerAt, lowerPoint, show c ≠ 0x3A3 by omega, show c ≠ 0x130 by omega]

/-- A code point outside ASCII lowercases to at least one code point outside ASCII or to `k`. -/
theorem exists_lowerAt_ge {c : Nat} (h : 0x80 ≤ c) (before after : List Nat) :
    ∃ x ∈ lowerAt before c after, 0x80 ≤ x ∨ x = 0x6B := by
  unfold lowerAt lowerPoint
  split
  · exact ⟨_, List.mem_singleton_self _, .inl (by split <;> omega)⟩
  · split
    · exact ⟨0x307, by simp, .inl (by omega)⟩
    · exact ⟨_, List.mem_singleton_self _, lowerSingle_ge h⟩

theorem lowerAt_le {c : Nat} (h : c ≤ 0x10FFFF) (before after : List Nat) :
    ∀ x ∈ lowerAt before c after, x ≤ 0x10FFFF := by
  unfold lowerAt lowerPoint
  split
  · simp only [List.mem_singleton]
    intro x hx
    split at hx <;> omega
  · split
    · simp only [List.mem_cons, List.not_mem_nil, or_false]
      omega
    · simpa using lowerSingle_le h

/-- ASCII code points lowercase one by one. -/
theorem lowerPoints_of_lt {cs : List Nat} (h : ∀ c ∈ cs, c < 0x80) (before : List Nat) :
    lowerPoints before cs = cs.map lowerSingle := by
  induction cs generalizing before with
  | nil => rfl
  | cons c cs ih =>
    rw [lowerPoints, lowerAt_of_lt (h c (by simp)), ih (fun c' hc' => h c' (by simp [hc'])),
      List.map_cons, List.singleton_append]

theorem lowerPoints_le {cs : List Nat} (h : ∀ c ∈ cs, c ≤ 0x10FFFF) (before : List Nat) :
    ∀ x ∈ lowerPoints before cs, x ≤ 0x10FFFF := by
  induction cs generalizing before with
  | nil => simp [lowerPoints]
  | cons c cs ih =>
    intro x hx
    rw [lowerPoints, List.mem_append] at hx
    rcases hx with hx | hx
    · exact lowerAt_le (h c (by simp)) before cs x hx
    · exact ih (fun c' hc' => h c' (by simp [hc'])) _ x hx

/-- Code points whose lowercase is ASCII without `k` are ASCII. -/
theorem lt_of_lowerPoints {cs : List Nat} (before : List Nat)
    (h : ∀ x ∈ lowerPoints before cs, x < 0x80 ∧ x ≠ 0x6B) : ∀ c ∈ cs, c < 0x80 := by
  induction cs generalizing before with
  | nil => simp
  | cons c cs ih =>
    rw [lowerPoints] at h
    intro c' hc'
    rcases List.mem_cons.1 hc' with rfl | hc'
    · rcases Nat.lt_or_ge c' 0x80 with hLt | hGe
      · exact hLt
      · obtain ⟨x, hx, hxGe⟩ := exists_lowerAt_ge hGe before cs
        have := h x (List.mem_append_left _ hx)
        omega
    · exact ih (c :: before) (fun x hx => h x (List.mem_append_right _ hx)) c' hc'

/-! ## ASCII texts -/

/-- The units of a code point within `10FFFF` start with the code point itself below `80` and
with a unit from `80` on otherwise. -/
theorem exists_unitsOf_head {c : Nat} (h : c ≤ 0x10FFFF) :
    ∃ u ∈ unitsOf c, (c < 0x80 → u.toNat = c) ∧ (0x80 ≤ c → 0x80 ≤ u.toNat) := by
  unfold unitsOf
  split
  · refine ⟨c.toUInt16, List.mem_singleton_self _, ?_⟩
    simp only [Nat.toUInt16_eq, UInt16.toNat_ofNat', Nat.reducePow]
    omega
  · refine ⟨(0xD800 + (c - 0x10000) / 0x400).toUInt16, List.mem_cons_self, ?_⟩
    simp only [Nat.toUInt16_eq, UInt16.toNat_ofNat', Nat.reducePow]
    omega

/-- Code points within `10FFFF` written with ASCII units other than `k` are themselves ASCII
code points other than `k`. -/
theorem ascii_of_units_ofCodePoints {cs : List Nat} (hLe : ∀ c ∈ cs, c ≤ 0x10FFFF)
    (h : ∀ u ∈ (ofCodePoints cs).units, u.toNat < 0x80 ∧ u.toNat ≠ 0x6B) :
    ∀ c ∈ cs, c < 0x80 ∧ c ≠ 0x6B := by
  intro c hc
  obtain ⟨u, hu, hLow, hHigh⟩ := exists_unitsOf_head (hLe c hc)
  have hUnit := h u (List.mem_flatMap.2 ⟨c, hc, hu⟩)
  rcases Nat.lt_or_ge c 0x80 with hLt | hGe
  · have := hLow hLt
    omega
  · have := hHigh hGe
    omega

/-- ASCII code points are written as ASCII units. -/
theorem ascii_units_ofCodePoints {cs : List Nat} (h : ∀ c ∈ cs, c < 0x80) :
    ∀ u ∈ (ofCodePoints cs).units, u.toNat < 0x80 := by
  intro u hu
  rw [ofCodePoints, flatMap_unitsOf_of_lt fun c hc => by have := h c hc; omega,
    List.mem_map] at hu
  obtain ⟨c, hc, rfl⟩ := hu
  have := h c hc
  simp only [Nat.toUInt16_eq, UInt16.toNat_ofNat', Nat.reducePow]
  omega

/-- An ASCII text is read unit by unit. -/
theorem codePoints_of_ascii {t : Text} (h : ∀ u ∈ t.units, u.toNat < 0x80) :
    t.codePoints = t.units.map UInt16.toNat := by
  apply codePointsOf_eq_map
  intro u hu
  cases hHigh : isHigh u
  · rfl
  · have := (isHigh_iff u).1 hHigh
    have := h u hu
    omega

/-- On an ASCII unit the lowercase is ASCII lowercasing. -/
theorem lowerSingle_toUInt16 {u : UInt16} (h : u.toNat < 0x80) :
    (lowerSingle u.toNat).toUInt16 = if 0x41 ≤ u && u ≤ 0x5A then u + 0x20 else u := by
  rw [lowerSingle_of_lt h]
  by_cases hCap : 0x41 ≤ u.toNat ∧ u.toNat ≤ 0x5A
  · have hCap' : (0x41 ≤ u && u ≤ 0x5A) = true := by
      simp only [Bool.and_eq_true, decide_eq_true_eq, UInt16.le_iff_toNat_le, UInt16.reduceToNat]
      exact hCap
    rw [if_pos hCap, if_pos hCap', ← UInt16.toNat_inj]
    simp only [Nat.toUInt16_eq, UInt16.toNat_ofNat', UInt16.toNat_add, UInt16.reduceToNat,
      Nat.reducePow]
  · have hCap' : (0x41 ≤ u && u ≤ 0x5A) = false := by
      simp only [Bool.and_eq_false_iff, decide_eq_false_iff_not, UInt16.le_iff_toNat_le,
        UInt16.reduceToNat]
      omega
    rw [if_neg hCap, hCap', if_neg Bool.false_ne_true, Nat.toUInt16_eq, UInt16.ofNat_toNat]

/-- An ASCII text lowercases as ASCII. -/
theorem toLowerCase_of_ascii {t : Text} (h : ∀ u ∈ t.units, u.toNat < 0x80) :
    t.toLowerCase = t.asciiLower := by
  have hPoints : ∀ c ∈ t.codePoints, c < 0x80 := by
    rw [codePoints_of_ascii h]
    simpa using h
  have hLowered : ∀ c ∈ t.codePoints.map lowerSingle, c < 0x10000 := by
    simp only [List.mem_map]
    rintro _ ⟨c, hc, rfl⟩
    have := hPoints c hc
    rw [lowerSingle_of_lt this]
    split <;> omega
  rw [toLowerCase, lowerPoints_of_lt hPoints, ofCodePoints, flatMap_unitsOf_of_lt hLowered,
    codePoints_of_ascii h, asciiLower, List.map_map, List.map_map]
  congr 1
  exact List.map_congr_left fun u hu => lowerSingle_toUInt16 (h u hu)

/-- A unit that ASCII lowercasing takes into ASCII is ASCII. -/
theorem lt_of_asciiLower {u : UInt16}
    (h : (if 0x41 ≤ u && u ≤ 0x5A then u + 0x20 else u).toNat < 0x80) : u.toNat < 0x80 := by
  split at h
  · next hCap =>
    simp only [Bool.and_eq_true, decide_eq_true_eq, UInt16.le_iff_toNat_le,
      UInt16.reduceToNat] at hCap
    omega
  · exact h

/-- Lowercasing onto ASCII without `k` is ASCII lowercasing: the only code points outside ASCII
whose lowercase holds ASCII are `İ`, whose lowercase keeps a combining dot, and the Kelvin sign,
whose lowercase is `k`. -/
theorem toLowerCase_eq_iff {t K : Text}
    (hK : ∀ u ∈ K.units, u.toNat < 0x80 ∧ u.toNat ≠ 0x6B) :
    t.toLowerCase = K ↔ t.asciiLower = K := by
  suffices hAscii : t.toLowerCase = K ∨ t.asciiLower = K → ∀ u ∈ t.units, u.toNat < 0x80 by
    constructor
    · intro hEq
      rw [← toLowerCase_of_ascii (hAscii (.inl hEq))]
      exact hEq
    · intro hEq
      rw [toLowerCase_of_ascii (hAscii (.inr hEq))]
      exact hEq
  rintro (hEq | hEq)
  · -- the lowered code points are ASCII without `k`, so the code points are ASCII
    rw [toLowerCase] at hEq
    have hLowered := ascii_of_units_ofCodePoints (lowerPoints_le (codePointsOf_le t.units) [])
      (hEq ▸ hK)
    have hPoints := lt_of_lowerPoints [] hLowered
    rw [← ofCodePoints_codePoints t]
    exact ascii_units_ofCodePoints hPoints
  · intro u hu
    apply lt_of_asciiLower
    have hMem : (if 0x41 ≤ u && u ≤ 0x5A then u + 0x20 else u) ∈ K.units := by
      rw [← hEq]
      exact List.mem_map_of_mem hu
    exact (hK _ hMem).1

/-! ## Trimming -/

/-- Blanks around units that neither start nor end with a blank are exactly what trimming
removes. -/
theorem trim_eq_of_blanks {pre core post : List UInt16} (hPre : ∀ u ∈ pre, isBlank u = true)
    (hPost : ∀ u ∈ post, isBlank u = true) (hHead : ∀ u ∈ core.head?, isBlank u = false)
    (hLast : ∀ u ∈ core.getLast?, isBlank u = false) :
    trim ⟨pre ++ core ++ post⟩ = ⟨core⟩ := by
  rw [trim, Text.mk.injEq, List.append_assoc, List.dropWhile_append_of_pos hPre]
  cases core with
  | nil =>
    rw [List.nil_append, List.dropWhile_eq_nil_iff.2 hPost]
    rfl
  | cons u us =>
    -- past the leading blanks the core starts, and past the trailing ones it ends
    have hFront : (u :: us ++ post).dropWhile isBlank = u :: us ++ post :=
      List.dropWhile_cons_of_neg (by simp [hHead u rfl])
    have hBack : (post.reverse ++ (u :: us).reverse).dropWhile isBlank = (u :: us).reverse := by
      rw [List.dropWhile_append_of_pos (by simpa using hPost)]
      cases hRev : (u :: us).reverse with
      | nil => rfl
      | cons v vs =>
        have hv : isBlank v = false := hLast v (by rw [← List.head?_reverse, hRev]; rfl)
        exact List.dropWhile_cons_of_neg (by simp [hv])
    rw [hFront, List.reverse_append, hBack, List.reverse_reverse]

/-- Every text is its trimmed form between blanks. -/
theorem exists_blanks_trim (t : Text) :
    ∃ pre post, t.units = pre ++ t.trim.units ++ post ∧ (∀ u ∈ pre, isBlank u = true) ∧
      (∀ u ∈ post, isBlank u = true) := by
  have hTrim : t.trim.units = ((t.units.dropWhile isBlank).reverse.dropWhile isBlank).reverse :=
    rfl
  refine ⟨t.units.takeWhile isBlank, ((t.units.dropWhile isBlank).reverse.takeWhile isBlank).reverse,
    ?_, fun u hu => List.mem_takeWhile_imp hu,
    fun u hu => List.mem_takeWhile_imp (List.mem_reverse.1 hu)⟩
  rw [hTrim, List.append_assoc, ← List.reverse_append, List.takeWhile_append_dropWhile,
    List.reverse_reverse, List.takeWhile_append_dropWhile]

/-- ASCII lowercasing takes no unit to or from a blank. -/
theorem isBlank_asciiLower (u : UInt16) :
    isBlank (if 0x41 ≤ u && u ≤ 0x5A then u + 0x20 else u) = isBlank u := by
  split
  · next hCap =>
    -- a capital and its small letter are both letters
    simp only [Bool.and_eq_true, decide_eq_true_eq, UInt16.le_iff_toNat_le,
      UInt16.reduceToNat] at hCap
    have hSmall : isBlank (u + 0x20) = false := by
      simp only [isBlank, ← UInt16.toNat_inj, UInt16.le_iff_toNat_le, UInt16.toNat_add,
        UInt16.reduceToNat, Bool.or_eq_false_iff, decide_eq_false_iff_not, Bool.and_eq_false_iff]
      omega
    have hCapital : isBlank u = false := by
      simp only [isBlank, ← UInt16.toNat_inj, UInt16.le_iff_toNat_le, UInt16.reduceToNat,
        Bool.or_eq_false_iff, decide_eq_false_iff_not, Bool.and_eq_false_iff]
      omega
    rw [hSmall, hCapital]
  · rfl

end Text

namespace Charset

/-! ## The registry -/

/-- Replacing the charset of the entries with one key. -/
private theorem lookup_map_replace (reg : List (Text × Charset)) (key k : Text) (c : Charset) :
    (reg.map fun e => if e.1 == key then (key, c) else e).lookup k =
      if k = key ∧ reg.any (·.1 == key) then some c else reg.lookup k := by
  induction reg with
  | nil => simp
  | cons e reg ih =>
    obtain ⟨k', c'⟩ := e
    by_cases hk : k = k'
    · -- the first entry answers
      subst hk
      by_cases hKey : k = key
      · subst hKey
        simp only [List.map_cons, beq_self_eq_true, ↓reduceIte, List.lookup_cons, List.any_cons,
          Bool.true_or, and_self]
      · have hBeq : (k == key) = false := beq_eq_false_iff_ne.2 hKey
        simp only [List.map_cons, hBeq, Bool.false_eq_true, ↓reduceIte, List.lookup_cons,
          beq_self_eq_true, hKey, false_and]
    · have hBeq : (k == k') = false := beq_eq_false_iff_ne.2 hk
      by_cases hk' : k' = key
      · subst hk'
        simp only [List.map_cons, beq_self_eq_true, ↓reduceIte, List.lookup_cons, hBeq, ih, hk,
          false_and]
      · have hBeq' : (k' == key) = false := beq_eq_false_iff_ne.2 hk'
        simp only [List.map_cons, hBeq', Bool.false_eq_true, ↓reduceIte, List.lookup_cons, hBeq,
          ih, List.any_cons, Bool.false_or]

/-- Setting a key makes it find the new charset and leaves every other key as it was. -/
theorem lookup_setKey (reg : List (Text × Charset)) (key k : Text) (c : Charset) :
    (setKey reg key c).lookup k = if k = key then some c else reg.lookup k := by
  unfold setKey
  split
  · next hAny =>
    rw [lookup_map_replace]
    simp only [hAny, and_true]
  · next hAny =>
    rw [List.lookup_append]
    by_cases hk : k = key
    · subst hk
      have hNone : reg.lookup k = none := by
        rw [List.lookup_eq_none_iff]
        intro e he
        have hNe : ¬ (e.1 == k) = true := List.any_eq_false.1 (Bool.eq_false_iff.2 hAny) e he
        rw [beq_iff_eq] at hNe
        exact bne_iff_ne.2 fun h => hNe h.symm
      simp [hNone]
    · have hBeq : (k == key) = false := beq_eq_false_iff_ne.2 hk
      simp only [List.lookup_cons, hBeq, List.lookup_nil, Option.or_none, if_neg hk]

/-- Registering a charset under keys makes each of them find it. -/
theorem lookup_foldl_setKey (keys : List Text) (reg : List (Text × Charset)) (c : Charset)
    (k : Text) :
    (keys.foldl (fun reg key => setKey reg key c) reg).lookup k =
      if k ∈ keys then some c else reg.lookup k := by
  induction keys generalizing reg with
  | nil => simp
  | cons key keys ih =>
    rw [List.foldl_cons, ih, lookup_setKey]
    by_cases hk : k ∈ keys <;> by_cases hKey : k = key <;> simp [hk, hKey]

/-- The registry finds under a key the charset registered last with that key. -/
theorem lookup_register (order : List Charset) (k : Text) :
    (register order).lookup k = order.reverse.find? (fun c => k ∈ c.keys) := by
  -- registering onto a registry that is not empty yet: the earlier entries come last
  suffices h : ∀ reg : List (Text × Charset),
      (order.foldl (fun reg c => c.keys.foldl (fun reg key => setKey reg key c) reg) reg).lookup k =
        (order.reverse.find? (fun c => k ∈ c.keys)).or (reg.lookup k) by
    rw [register, h, List.lookup_nil, Option.or_none]
  induction order with
  | nil => simp
  | cons c order ih =>
    intro reg
    rw [List.foldl_cons, ih, lookup_foldl_setKey, List.reverse_cons, List.find?_append,
      List.find?_singleton, Option.or_assoc]
    by_cases hk : k ∈ c.keys <;> simp [hk]

/-- Every charset of the library is registered. -/
theorem mem_all (c : Charset) : c ∈ all := by
  cases c <;> decide

/-- No key belongs to two charsets. -/
theorem keys_disjoint : ∀ c ∈ all, ∀ c' ∈ all, c ≠ c' → ∀ k ∈ c.keys, k ∉ c'.keys := by
  decide +kernel

/-- The charset that owns a key is found wherever it stands. -/
theorem find?_owner {l : List Charset} {k : Text} {c : Charset} :
    l.find? (fun c => k ∈ c.keys) = some c ↔ c ∈ l ∧ k ∈ c.keys := by
  constructor
  · intro h
    have hOwns := List.find?_some h
    exact ⟨List.mem_of_find?_eq_some h, of_decide_eq_true hOwns⟩
  · rintro ⟨hMem, hk⟩
    have hSome : (l.find? (fun c => k ∈ c.keys)).isSome = true :=
      List.find?_isSome.2 ⟨c, hMem, decide_eq_true hk⟩
    obtain ⟨c', hc'⟩ := Option.isSome_iff_exists.1 hSome
    have hOwns := List.find?_some hc'
    have hk' : k ∈ c'.keys := of_decide_eq_true hOwns
    have hSame : c' = c := Decidable.byContradiction fun hNe =>
      keys_disjoint c' (mem_all c') c (mem_all c) hNe k hk' hk
    rw [hc', hSame]

/-- The registry finds under a key the charset that owns it. -/
theorem registry_lookup_eq_some_iff (k : Text) (c : Charset) :
    registry.lookup k = some c ↔ k ∈ c.keys := by
  rw [registry, lookup_register, find?_owner, List.mem_reverse]
  exact and_iff_right (mem_all c)

/-- Registering the charsets in any order builds the same lookup. -/
theorem lookup_register_perm {order : List Charset} (h : order.Perm all) (k : Text) :
    (register order).lookup k = registry.lookup k := by
  refine Option.ext fun c => ?_
  rw [registry, lookup_register, lookup_register, find?_owner, find?_owner, List.mem_reverse,
    List.mem_reverse, h.mem_iff]

/-! ## Names -/

/-- The keys are the names in ASCII lowercase. -/
theorem keys_eq (c : Charset) :
    c.keys = (c.name :: c.aliases).map fun s => (Text.ofString s).asciiLower := by
  cases c <;> decide +kernel

/-- Every unit of a key is ASCII, and none is a blank or a `k`. -/
theorem keys_plain (c : Charset) :
    ∀ k ∈ c.keys, ∀ u ∈ k.units, u.toNat < 0x80 ∧ u.toNat ≠ 0x6B ∧ Text.isBlank u = false := by
  -- checked as one boolean per charset: the kernel evaluates it without unfolding instances
  have hAll : c.keys.all (fun k => k.units.all fun u =>
      u.toNat < 0x80 && u.toNat != 0x6B && !Text.isBlank u) = true := by
    cases c <;> decide +kernel
  intro k hk u hu
  have hUnit := List.all_eq_true.1 (List.all_eq_true.1 hAll k hk) u hu
  simpa [and_assoc] using hUnit

/-- Lowercasing onto a key is ASCII lowercasing. -/
theorem toLowerCase_eq_key_iff (t : Text) {c : Charset} {k : Text} (hk : k ∈ c.keys) :
    t.toLowerCase = k ↔ t.asciiLower = k :=
  Text.toLowerCase_eq_iff fun u hu => ⟨(keys_plain c k hk u hu).1, (keys_plain c k hk u hu).2.1⟩

/-- The ASCII lowercase of a name is a key. -/
theorem asciiLower_mem_keys {c : Charset} {n : String} (hn : n ∈ c.name :: c.aliases) :
    (Text.ofString n).asciiLower ∈ c.keys := by
  rw [keys_eq]
  exact List.mem_map_of_mem hn

/-- A canonical name has no blanks around it. -/
theorem trim_name (c : Charset) : (Text.ofString c.name).trim = .ofString c.name := by
  cases c <;> decide

/-- A name finds the charset one of whose names it equals, once trimmed, up to ASCII case. -/
theorem lookup_eq_some_iff (name : Text) (c : Charset) :
    lookup name = some c ↔
      ∃ n ∈ c.name :: c.aliases, name.trim.asciiLower = (Text.ofString n).asciiLower := by
  rw [lookup, registry_lookup_eq_some_iff]
  constructor
  · intro hk
    have hAscii := (toLowerCase_eq_key_iff name.trim hk).1 rfl
    rw [keys_eq, List.mem_map] at hk
    obtain ⟨n, hn, hEq⟩ := hk
    exact ⟨n, hn, hAscii.trans hEq.symm⟩
  · rintro ⟨n, hn, hEq⟩
    have hk := asciiLower_mem_keys hn
    rw [(toLowerCase_eq_key_iff name.trim hk).2 hEq]
    exact hk

/-- A name finds a charset exactly when it is one of the charset's names up to ASCII case, with
blanks around it. -/
theorem lookup_eq_some_iff_blanks (name : Text) (c : Charset) :
    lookup name = some c ↔ ∃ (pre : List UInt16) (core : Text) (post : List UInt16),
      name.units = pre ++ core.units ++ post ∧
      (∀ u ∈ pre, Text.isBlank u = true) ∧ (∀ u ∈ post, Text.isBlank u = true) ∧
      ∃ n ∈ c.name :: c.aliases, core.asciiLower = (Text.ofString n).asciiLower := by
  rw [lookup_eq_some_iff]
  constructor
  · rintro ⟨n, hn, hEq⟩
    obtain ⟨pre, post, hUnits, hPre, hPost⟩ := Text.exists_blanks_trim name
    exact ⟨pre, name.trim, post, hUnits, hPre, hPost, n, hn, hEq⟩
  · rintro ⟨pre, core, post, hUnits, hPre, hPost, n, hn, hEq⟩
    -- the core lowercases onto a key, which has no blank, so trimming stops at the core
    have hKey := asciiLower_mem_keys hn
    have hCore : ∀ u ∈ core.units, Text.isBlank u = false := by
      intro u hu
      rw [← Text.isBlank_asciiLower]
      refine (keys_plain c _ hKey _ ?_).2.2
      rw [← hEq]
      exact List.mem_map_of_mem hu
    have hName : name = ⟨pre ++ core.units ++ post⟩ := by
      cases name
      exact congrArg Text.mk hUnits
    have hTrim : name.trim = core := by
      rw [hName]
      exact Text.trim_eq_of_blanks hPre hPost (fun u hu => hCore u (List.mem_of_mem_head? hu))
        (fun u hu => hCore u (List.mem_of_mem_getLast? hu))
    exact ⟨n, hn, hTrim ▸ hEq⟩

end Charset

/-! ## Looking up names -/

theorem forName_of_lookup_some {name : Text} {c : Charset} (h : Charset.lookup name = some c) :
    forName (some name) = .ok c := by
  simp only [forName, Check.present, bind, Except.bind, h]
  rfl

theorem forName_of_lookup_none {name : Text} (h : Charset.lookup name = none) :
    forName (some name) = .error (.unsupportedCharset name) := by
  simp only [forName, Check.present, bind, Except.bind, h]
  rfl

theorem isSupported_some (name : Text) :
    isSupported (some name) = .ok (Charset.lookup name).isSome := rfl

theorem isSupported_eq_true_iff (name : Text) :
    isSupported (some name) = .ok true ↔ ∃ c, Charset.lookup name = some c := by
  rw [isSupported_some, Except.ok.injEq, Option.isSome_iff_exists]

theorem forName_eq_ok_iff (name : Text) (c : Charset) :
    forName (some name) = .ok c ↔ Charset.lookup name = some c := by
  cases h : Charset.lookup name with
  | none => simp [forName_of_lookup_none h]
  | some c' =>
    rw [forName_of_lookup_some h]
    exact ⟨fun hEq => by cases hEq; rfl, fun hEq => by cases hEq; rfl⟩

/-- The contract of charset names. An absent name is refused with the name of the operation. A
name denotes a charset, for `forName` and `isSupported` alike, exactly when it is one of the
charset's names up to ASCII case with blanks around it; the names are the canonical name and
the aliases, and their lowercase forms are the keys of the registry. No key belongs to two
charsets, so the registry does not depend on the order of registration, and the charset found
is found again by its canonical name. An unknown name is reported as it was given. Full Unicode
lowercasing agrees with ASCII lowercasing on every key. -/
theorem charset_names :
    forName none = .error (.nullArgument (.ofString "forName(null)")) ∧
    isSupported none = .error (.nullArgument (.ofString "isSupported(null)")) ∧
    (∀ name, (∃ c, forName (some name) = .ok c) ↔ isSupported (some name) = .ok true) ∧
    (∀ name, isSupported (some name) = .ok true ↔
      ∃ (pre : List UInt16) (core : Text) (post : List UInt16),
        name.units = pre ++ core.units ++ post ∧
        (∀ u ∈ pre, Text.isBlank u = true) ∧ (∀ u ∈ post, Text.isBlank u = true) ∧
        ∃ c : Charset, ∃ n ∈ c.name :: c.aliases,
          core.asciiLower = (Text.ofString n).asciiLower) ∧
    (∀ name c, forName (some name) = .ok c ↔
      ∃ n ∈ c.name :: c.aliases, name.trim.asciiLower = (Text.ofString n).asciiLower) ∧
    (∀ name, (¬ ∃ c, forName (some name) = .ok c) →
      forName (some name) = .error (.unsupportedCharset name)) ∧
    (∀ c : Charset, c.keys = (c.name :: c.aliases).map fun s => (Text.ofString s).asciiLower) ∧
    (∀ c c' : Charset, c ≠ c' → ∀ k ∈ c.keys, k ∉ c'.keys) ∧
    (∀ order, order.Perm Charset.all →
      ∀ k, (Charset.register order).lookup k = Charset.registry.lookup k) ∧
    (∀ name c, forName (some name) = .ok c →
      name.trim.toLowerCase ∈ c.keys ∧ forName (some (.ofString c.name)) = .ok c) ∧
    (∀ (t : Text) (c : Charset), ∀ k ∈ c.keys, t.toLowerCase = k ↔ t.asciiLower = k) := by
  refine ⟨rfl, rfl, fun name => ?_, fun name => ?_, fun name c => ?_, ?_, Charset.keys_eq, ?_, ?_,
    ?_, ?_⟩
  · simp only [isSupported_eq_true_iff, forName_eq_ok_iff]
  · simp only [isSupported_eq_true_iff, Charset.lookup_eq_some_iff_blanks]
    constructor
    · rintro ⟨c, pre, core, post, hUnits, hPre, hPost, n, hn, hEq⟩
      exact ⟨pre, core, post, hUnits, hPre, hPost, c, n, hn, hEq⟩
    · rintro ⟨pre, core, post, hUnits, hPre, hPost, c, n, hn, hEq⟩
      exact ⟨c, pre, core, post, hUnits, hPre, hPost, n, hn, hEq⟩
  · rw [forName_eq_ok_iff, Charset.lookup_eq_some_iff]
  · intro name hNone
    apply forName_of_lookup_none
    cases h : Charset.lookup name with
    | none => rfl
    | some c => exact absurd ⟨c, forName_of_lookup_some h⟩ hNone
  · intro c c' hNe k hk
    exact Charset.keys_disjoint c (Charset.mem_all c) c' (Charset.mem_all c') hNe k hk
  · intro order hPerm k
    exact Charset.lookup_register_perm hPerm k
  · intro name c hName
    refine ⟨?_, forName_of_lookup_some ?_⟩
    · rwa [forName_eq_ok_iff, Charset.lookup, Charset.registry_lookup_eq_some_iff] at hName
    · rw [Charset.lookup_eq_some_iff]
      exact ⟨c.name, List.mem_cons_self, by rw [Charset.trim_name]⟩
  · intro t c k hk
    exact Charset.toLowerCase_eq_key_iff t hk

/-- Blanks that trimming removes around a name in another case, the zero width space it keeps,
the round trip through the canonical name, and a registry built in another order. -/
theorem charset_names_cases :
    forName (some (.ofString "\u3000Latin1\uFEFF")) = .ok .latin1 ∧
    forName (some (.ofString "\u200Butf8")) =
      .error (.unsupportedCharset (.ofString "\u200Butf8")) ∧
    forName (some (.ofString "ISO-8859-1")) = .ok .latin1 ∧
    (Charset.register [.utf8, .ascii, .latin1]).lookup (.ofString "us") = some .ascii := by
  obtain ⟨-, -, hSupported, -, hOk, hUnknown, -, -, hOrder, hName, -⟩ := charset_names
  have hLatin1 : forName (some (.ofString "\u3000Latin1\uFEFF")) = .ok .latin1 :=
    (hOk _ _).2 ⟨"latin1", by decide, by decide⟩
  refine ⟨hLatin1, hUnknown _ ?_, (hName _ _ hLatin1).2, ?_⟩
  · have hNone : Charset.lookup (.ofString "\u200Butf8") = none := by decide +kernel
    rw [hSupported, isSupported_some, hNone]
    exact fun h => Bool.false_ne_true (Except.ok.inj h)
  · rw [hOrder _ (by decide)]
    decide +kernel

end Transcode
