import ReportSql.Proofs.Masking

/-!
# Messages without secrets

A message in which a password, the address of a connection or a dotted address stands between
spaces is masked to the same text whatever the secret is, and whatever surrounds it: something that
is found before the secret may go on through it, and what is found in it may be masked before it is;
but at no pass does it matter which secret it is.
-/

namespace ReportSql.Execution

open ReportSql.Decimal (StartsWithout startsWithout_cons startsWithout_nil)
open ReportSql.Text

/-! ## Secrets -/

/-- A scheme, a colon and two slashes, and something without blanks behind them. -/
inductive IsConnection : List Char → Prop where
  | mk {c : Char} {scheme place : List Char} : isSchemeStart c = true →
      (∀ d ∈ scheme, isSchemeChar d = true) → place ≠ [] → (∀ d ∈ place, isBlank d = false) →
      IsConnection (c :: (scheme ++ ':' :: '/' :: '/' :: place))

/-- One to three decimal digits. -/
structure IsGroup (g : List Char) : Prop where
  one_le : 1 ≤ g.length
  le_three : g.length ≤ 3
  isDigit : ∀ c ∈ g, c.isDigit = true

instance (g : List Char) : Decidable (IsGroup g) :=
  decidable_of_iff (1 ≤ g.length ∧ g.length ≤ 3 ∧ g.all Char.isDigit = true)
    ⟨fun h => ⟨h.1, h.2.1, List.all_eq_true.mp h.2.2⟩,
      fun h => ⟨h.one_le, h.le_three, List.all_eq_true.mpr h.isDigit⟩⟩

/-- Four groups of digits with points between them. -/
inductive IsAddress : List Char → Prop where
  | mk {a b c d : List Char} : IsGroup a → IsGroup b → IsGroup c → IsGroup d →
      IsAddress (a ++ '.' :: (b ++ '.' :: (c ++ '.' :: d)))

/-- Two secrets of one kind: passwords beside the same key, in whatever case it is written;
addresses of connections; or dotted addresses. -/
inductive SameKind : List Char → List Char → Prop where
  | password {k v w : List Char} : k.map fold ∈ passwordKeys → IsSecret v → IsSecret w →
      SameKind (k ++ '=' :: v) (k ++ '=' :: w)
  | connection {x y : List Char} : IsConnection x → IsConnection y → SameKind x y
  | address {x y : List Char} : IsAddress x → IsAddress y → SameKind x y

section

variable {v x y : List Char}

/-- The address of a connection is found as a whole. -/
theorem findConnection_of_isConnection (hx : IsConnection x) :
    findConnection (some ' ') x = some ⟨x.length, "[connection]".toList⟩ := by
  obtain @⟨c, scheme, place, hc, hscheme, hne, hplace⟩ := hx
  have hmark : isSchemeChar ':' = false := by decide
  have hall : place.takeWhile (fun c => !isBlank c) = place :=
    List.takeWhile_eq_self_iff.mpr fun d hd => by rw [hplace d hd]; rfl
  have hempty : place.isEmpty = false := by
    cases place with
    | nil => exact absurd rfl hne
    | cons d place => rfl
  have hstart : startsWord (some ' ') = true := by decide
  rw [findConnection_cons, hc, hstart, List.dropWhile_append_of_pos hscheme,
    List.takeWhile_append_of_pos hscheme, List.dropWhile_cons_of_neg (by simp [hmark]),
    List.takeWhile_cons_of_neg (by simp [hmark]), List.append_nil]
  simp only [Bool.and_self, if_true, behindMark?, Option.bind_some, connection, hall, hempty,
    Bool.false_eq_true, if_false, List.length_cons, List.length_append]
  congr 2
  omega

/-! ## Passwords -/

theorem isLowerWord_passwordKeys : ∀ key ∈ passwordKeys, IsLowerWord key := by
  decide

theorem isLowerWord_hostKeys : ∀ key ∈ hostKeys, IsLowerWord key := by
  decide

/-- Letters of a key are characters of a scheme and of a value, and no signs. -/
theorem of_isLower_fold {c : Char} (h : (fold c).isLower = true) :
    isSchemeChar c = true ∧ isSecretChar c = true ∧ isSign c = false := by
  have hne : ∀ d : Char, (fold d).isLower = false → c ≠ d := by
    rintro d hd rfl
    rw [h] at hd
    cases hd
  have hblank : isBlank c = false := by
    by_contra hblank
    have hword := isWord_of_isBlank (Bool.not_eq_false _ ▸ hblank)
    rw [isWord_of_fold h] at hword
    cases hword
  refine ⟨?_, ?_, ?_⟩
  · obtain ⟨hfirst, hlast⟩ := Bool.and_eq_true_iff.mp h
    have hletter : (decide ('a' ≤ fold c) && decide (fold c ≤ 'z')) = true :=
      Bool.and_eq_true_iff.mpr ⟨hfirst, hlast⟩
    simp only [isSchemeChar, hletter, Bool.true_or]
  · simp [isSecretChar, hblank, hne ';' (by decide), hne ',' (by decide), hne '\x27' (by decide),
      hne '"' (by decide)]
  · simp [isSign, hne '=' (by decide), hne ':' (by decide)]

/-- A key with an equals sign and a value behind it is found as a whole. -/
theorem assignment?_key {k : List Char} (hv : IsSecret v) (s : List Char) :
    assignment? (k.map fold) (k ++ '=' :: (v ++ ' ' :: s)) =
      some ⟨(k ++ '=' :: v).length, k ++ "=***".toList⟩ := by
  have hstrip : stripWord (k.map fold) (k ++ '=' :: (v ++ ' ' :: s)) =
      some ('=' :: (v ++ ' ' :: s)) :=
    stripWord_eq_some_iff.mpr ⟨k, rfl, rfl⟩
  have hsign : isBlank '=' = false := by decide
  have hassigned : assigned? ('=' :: (v ++ ' ' :: s)) = some (1 + v.length) := by
    have hnone : ∀ c ∈ ([] : List Char), isBlank c = true := fun _ h => absurd h List.not_mem_nil
    have hdrop : ('=' :: (v ++ ' ' :: s)).dropWhile isBlank = '=' :: (v ++ ' ' :: s) :=
      List.dropWhile_cons_of_neg (by simp [hsign])
    have hvalue := hv.signed_append hnone (c := '=') rfl 0 s
    rw [assigned?_of_dropWhile hdrop, List.takeWhile_cons_of_neg (by simp [hsign])]
    simpa using hvalue
  have htake : (k ++ '=' :: (v ++ ' ' :: s)).take k.length = k := List.take_left
  rw [assignment?, hstrip, Option.bind_some, hassigned]
  simp only [List.length_map, htake, List.length_append, List.length_cons]
  congr 2
  omega

/-- What is masked inside a password leaves a password. -/
theorem isSecret_replaceFrom_findConnection (hv : IsSecret v) (before : Option Char) :
    IsSecret (replaceFrom findConnection 0 before v) where
  ne_nil := replaceFrom_ne_nil (fun _ _ f hf => by rw [replacement_findConnection hf]; decide)
    hv.ne_nil before
  chars := by
    have hmask : IsSecret "[connection]".toList := by decide
    exact forall_mem_replaceFrom
      (fun _ _ f hf => by rw [replacement_findConnection hf]; exact hmask.chars) hv.chars 0 before

section

variable {k : List Char} (hk : k.map fold ∈ passwordKeys)

include hk

theorem isLower_fold_of_mem {c : Char} (hc : c ∈ k) : (fold c).isLower = true :=
  (isLowerWord_passwordKeys _ hk).isLower _ (List.mem_map_of_mem hc)

theorem IsSecret.isValue_password (hv : IsSecret v) : IsValue (k ++ '=' :: v) where
  ne_nil := List.append_ne_nil_of_right_ne_nil _ (List.cons_ne_nil _ _)
  chars := List.forall_mem_append.mpr
    ⟨fun c hc => (of_isLower_fold (isLower_fold_of_mem hk hc)).2.1,
      List.forall_mem_cons.mpr ⟨by decide, hv.chars⟩⟩
  head c hc := by
    have hne : k ≠ [] := fun h => (isLowerWord_passwordKeys _ hk).ne_nil (by rw [h]; rfl)
    rw [List.head?_append_of_ne_nil _ hne] at hc
    exact (of_isLower_fold (isLower_fold_of_mem hk (List.mem_of_mem_head? hc))).2.2

/-- What is masked inside a password does not reach its key. -/
theorem replaceFrom_findConnection_password (v : List Char) (before : Option Char) :
    replaceFrom findConnection 0 before (k ++ '=' :: v) =
      k ++ '=' :: replaceFrom findConnection 0 (some '=') v := by
  have hscheme : ∀ c ∈ k, isSchemeChar c = true := fun c hc =>
    (of_isLower_fold (isLower_fold_of_mem hk hc)).1
  clear hk
  induction k generalizing before with
  | nil =>
    rw [List.nil_append, replaceFrom, findConnection_eq_none (by decide)]
    rfl
  | cons c k ih =>
    obtain ⟨-, hscheme⟩ := List.forall_mem_cons.mp hscheme
    have hnone : findConnection before (c :: (k ++ '=' :: v)) = none := by
      rw [findConnection_cons, List.dropWhile_append_of_pos hscheme,
        List.dropWhile_cons_of_neg (by decide)]
      exact ite_self none
    rw [List.cons_append, replaceFrom, hnone]
    exact congrArg (c :: ·) (ih (some c) hscheme)

/-- A password is masked, whatever it is. -/
theorem turns_password (hv : IsSecret v) :
    Turns (findAssignment passwordKeys) (k ++ '=' :: v) (k ++ "=***".toList) := by
  have hvalue := hv.isValue_password hk
  have hblind := blindTo_findAssignment isLowerWord_passwordKeys hvalue hvalue
  refine turns_of_found hblind.space hvalue.ne_nil fun s => ?_
  have hfound := assignment?_key (k := k) hv s
  have hstart : startsWord (some ' ') = true := by decide
  rw [findAssignment_eq, hstart, if_pos rfl, List.append_assoc, List.cons_append]
  rcases List.mem_cons.mp hk with hk | hk
  · rw [hk] at hfound
    rw [passwordKeys, List.findSome?_cons, hfound]
  · rw [List.mem_singleton.mp hk] at hfound
    have hother : stripWord "password".toList (k ++ '=' :: (v ++ ' ' :: s)) = none := by
      refine Option.eq_none_iff_forall_ne_some.mpr fun rest h => ?_
      obtain ⟨u, happ, hu⟩ := stripWord_eq_some_iff.mp h
      have hletters := congrArg (List.map fold) happ
      rw [List.map_append, List.map_append, List.mem_singleton.mp hk, hu] at hletters
      simp at hletters
    have hnone : assignment? "password".toList (k ++ '=' :: (v ++ ' ' :: s)) = none := by
      rw [assignment?, hother]
      rfl
    rw [passwordKeys, List.findSome?_cons, hnone, List.findSome?_cons, hfound]

end

/-! ## Dotted addresses -/

/-- A character that starts no connection and no key, but can be a part of a value. -/
structure IsInert (c : Char) : Prop where
  schemeStart : isSchemeStart c = false
  letter : (fold c).isLower = false
  secret : isSecretChar c = true
  sign : isSign c = false

theorem isInert_point : IsInert '.' :=
  ⟨by decide, by decide, by decide, by decide⟩

theorem isInert_of_isDigit {c : Char} (h : c.isDigit = true) :
    IsInert c ∧ Text.isDigit c = true := by
  have hall : ∀ n < 58, (Char.ofNat n).isDigit = true →
      isSchemeStart (Char.ofNat n) = false ∧ (fold (Char.ofNat n)).isLower = false ∧
        isSecretChar (Char.ofNat n) = true ∧ isSign (Char.ofNat n) = false ∧
        Text.isDigit (Char.ofNat n) = true := by decide +kernel
  have hlast : c.toNat < 58 := by
    have hval := (Bool.and_eq_true_iff.mp h).2
    exact Nat.lt_succ_of_le (UInt32.le_iff_toNat_le.mp (of_decide_eq_true hval))
  have hc := hall c.toNat hlast
  rw [Char.ofNat_toNat] at hc
  obtain ⟨hstart, hletter, hsecret, hsign, hdigit⟩ := hc h
  exact ⟨⟨hstart, hletter, hsecret, hsign⟩, hdigit⟩

theorem IsGroup.isInert {g : List Char} (h : IsGroup g) : ∀ c ∈ g, IsInert c :=
  fun c hc => (isInert_of_isDigit (h.isDigit c hc)).1

namespace IsAddress

theorem isInert (h : IsAddress x) : ∀ c ∈ x, IsInert c := by
  obtain ⟨ha, hb, hc, hd⟩ := h
  simp only [List.forall_mem_append, List.forall_mem_cons]
  exact ⟨ha.isInert, isInert_point, hb.isInert, isInert_point, hc.isInert, isInert_point,
    hd.isInert⟩

theorem isValue (h : IsAddress x) : IsValue x where
  ne_nil := by
    obtain ⟨ha, -, -, -⟩ := h
    exact List.append_ne_nil_of_right_ne_nil _ (List.cons_ne_nil _ _)
  chars c hc := (h.isInert c hc).secret
  head c hc := (h.isInert c (List.mem_of_mem_head? hc)).sign

theorem turns_findConnection (h : IsAddress x) : Turns findConnection x x :=
  turns_self confined_findConnection.space fun c hc before s =>
    findConnection_eq_none (h.isInert c hc).schemeStart before s

theorem turns_findAssignment (h : IsAddress x) {keys : List (List Char)}
    (hkeys : ∀ key ∈ keys, IsLowerWord key) : Turns (findAssignment keys) x x := by
  have hblind := blindTo_findAssignment hkeys h.isValue h.isValue
  exact turns_self hblind.space fun c hc before s =>
    findAssignment_eq_none hkeys (h.isInert c hc).letter before s

end IsAddress

/-- A group is read up to the next character that is no digit. -/
theorem digitGroup?_group {g s : List Char} (hg : IsGroup g)
    (hs : StartsWithout Text.isDigit s) : digitGroup? (g ++ s) = some (g.length, s) := by
  have hall : ∀ c ∈ g, Text.isDigit c = true := fun c hc => (isInert_of_isDigit (hg.isDigit c hc)).2
  rw [digitGroup?, hs.takeWhile_append hall, hs.dropWhile_append hall]
  exact if_pos ⟨hg.one_le, hg.le_three⟩

theorem pointGroup?_group {g s : List Char} (hg : IsGroup g)
    (hs : StartsWithout Text.isDigit s) :
    pointGroup? ('.' :: (g ++ s)) = some (g.length + 1, s) := by
  rw [pointGroup?, digitGroup?_group hg hs]
  rfl

theorem IsAddress.addressGroups?_eq (h : IsAddress x) : addressGroups? x = some (x.length, []) := by
  obtain @⟨a, b, c, d, ha, hb, hc, hd⟩ := h
  have hpoint : ∀ s, StartsWithout Text.isDigit ('.' :: s) := startsWithout_cons (by decide)
  have hlast := pointGroup?_group hd (startsWithout_nil _)
  rw [List.append_nil] at hlast
  simp only [addressGroups?, Option.bind_eq_bind, digitGroup?_group ha (hpoint _),
    pointGroup?_group hb (hpoint _), pointGroup?_group hc (hpoint _), hlast, Option.bind_some,
    List.length_append, List.length_cons]
  congr 2
  omega

/-- A dotted address is found as a whole. -/
theorem IsAddress.findAddress_eq (h : IsAddress x) :
    findAddress (some ' ') x = some ⟨x.length, "[address]".toList⟩ := by
  have hstart : startsWord (some ' ') = true := by decide
  rw [findAddress, hstart, h.addressGroups?_eq]
  rfl

/-! ## Messages -/

/-- **Two messages that differ in a secret stay in step until it is masked.** A password may lose a
part of itself before it is masked; a dotted address is the last to be masked. -/
theorem mask_eq_of_sameKind (h : SameKind x y) (p s : List Char) :
    mask (p ++ ' ' :: (x ++ ' ' :: s)) = mask (p ++ ' ' :: (y ++ ' ' :: s)) := by
  have hstart := DifferIn.part (x := x) (y := y) p s
  cases h with
  | @password k v w hk hv hw =>
    have hconnection := hstart.replaceAll (confined_findConnection.blindTo _ _)
      (confined_findConnection.turns _) (confined_findConnection.turns _)
    rw [replaceFrom_findConnection_password hk, replaceFrom_findConnection_password hk]
      at hconnection
    have hv' := isSecret_replaceFrom_findConnection hv (some '=')
    have hw' := isSecret_replaceFrom_findConnection hw (some '=')
    have hpassword := hconnection.replaceAll
      (blindTo_findAssignment isLowerWord_passwordKeys (hv'.isValue_password hk)
        (hw'.isValue_password hk)) (turns_password hk hv') (turns_password hk hw')
    rw [mask, mask, hpassword.eq]
  | connection hx hy =>
    have hconnection := hstart.replaceAll (confined_findConnection.blindTo _ _)
      (confined_findConnection.turns_of_found (findConnection_of_isConnection hx))
      (confined_findConnection.turns_of_found (findConnection_of_isConnection hy))
    rw [mask, mask, hconnection.eq]
  | address hx hy =>
    have hconnection := hstart.replaceAll (confined_findConnection.blindTo _ _)
      hx.turns_findConnection hy.turns_findConnection
    have hpassword := hconnection.replaceAll
      (blindTo_findAssignment isLowerWord_passwordKeys hx.isValue hy.isValue)
      (hx.turns_findAssignment isLowerWord_passwordKeys)
      (hy.turns_findAssignment isLowerWord_passwordKeys)
    have hhost := hpassword.replaceAll
      (blindTo_findAssignment isLowerWord_hostKeys hx.isValue hy.isValue)
      (hx.turns_findAssignment isLowerWord_hostKeys) (hy.turns_findAssignment isLowerWord_hostKeys)
    have haddress := hhost.replaceAll (confined_findAddress.blindTo _ _)
      (confined_findAddress.turns_of_found hx.findAddress_eq)
      (confined_findAddress.turns_of_found hy.findAddress_eq)
    rw [mask, mask, haddress.eq]

/-- **What is shown of a message does not depend on the secrets in it.** Two messages that are the
same but for secrets of one kind between the same texts are shown alike, whatever the texts hold;
and nothing that is shown has more than 200 characters. -/
theorem sanitize_hides_secrets (h : SameKind x y) (p s : List Char) :
    sanitize (p ++ ' ' :: (x ++ ' ' :: s)) = sanitize (p ++ ' ' :: (y ++ ' ' :: s)) ∧
      ∀ message, (sanitize message).length ≤ 200 := by
  constructor
  · rw [sanitize, sanitize, mask_eq_of_sameKind h]
  · intro message
    exact List.length_take_le maxMessage (mask message)

/-- A password behind a key that is left open, a connection that holds a key, and an address. -/
theorem sanitize_hides_each_kind :
    sanitize ("server:".toList ++ ' ' :: (("Pwd".toList ++ '=' :: "a=b://c".toList) ++ ' ' :: [])) =
        sanitize ("server:".toList ++ ' ' :: (("Pwd".toList ++ '=' :: "z".toList) ++ ' ' :: [])) ∧
      sanitize ([] ++ ' ' :: (('d' :: ("b".toList ++ ':' :: '/' :: '/' :: "pwd=a,b".toList)) ++
          ' ' :: "is down".toList)) =
        sanitize ([] ++ ' ' :: (('d' :: ("b".toList ++ ':' :: '/' :: '/' :: "z".toList)) ++
          ' ' :: "is down".toList)) ∧
      sanitize ("to".toList ++ ' ' :: (("10".toList ++ '.' :: ("0".toList ++ '.' ::
          ("0".toList ++ '.' :: "1".toList))) ++ ' ' :: ":5432".toList)) =
        sanitize ("to".toList ++ ' ' :: (("192".toList ++ '.' :: ("168".toList ++ '.' ::
          ("1".toList ++ '.' :: "25".toList))) ++ ' ' :: ":5432".toList)) := by
  have hpassword : SameKind ("Pwd".toList ++ '=' :: "a=b://c".toList)
      ("Pwd".toList ++ '=' :: "z".toList) :=
    .password (by decide) (by decide) (by decide)
  have hscheme : ∀ d ∈ "b".toList, isSchemeChar d = true := List.all_eq_true.mp (by decide)
  have hplace : ∀ place : List Char, place.all (fun d => !isBlank d) = true →
      ∀ d ∈ place, isBlank d = false := by
    intro place h d hd
    simpa using List.all_eq_true.mp h d hd
  have hconnection : SameKind ('d' :: ("b".toList ++ ':' :: '/' :: '/' :: "pwd=a,b".toList))
      ('d' :: ("b".toList ++ ':' :: '/' :: '/' :: "z".toList)) :=
    .connection (.mk (by decide) hscheme (by decide) (hplace _ (by decide)))
      (.mk (by decide) hscheme (by decide) (hplace _ (by decide)))
  have haddress : SameKind
      ("10".toList ++ '.' :: ("0".toList ++ '.' :: ("0".toList ++ '.' :: "1".toList)))
      ("192".toList ++ '.' :: ("168".toList ++ '.' :: ("1".toList ++ '.' :: "25".toList))) :=
    .address (.mk (by decide) (by decide) (by decide) (by decide))
      (.mk (by decide) (by decide) (by decide) (by decide))
  exact ⟨(sanitize_hides_secrets hpassword _ _).1, (sanitize_hides_secrets hconnection _ _).1,
    (sanitize_hides_secrets haddress _ _).1⟩

end

end ReportSql.Execution
