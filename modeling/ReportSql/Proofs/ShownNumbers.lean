import ReportSql.Proofs.Preview

/-!
# Numbers in statements to look at

A statement for showing to people has a numeral in place of each number that is bound. The numeral
of an integer that a signed word holds is that integer; the one of a double is read back to that
double. A larger integer, which only an unsigned word holds, is shown as the double next to it, and
so under a numeral with a point or an exponent, that is as a rule another number.
-/

namespace ReportSql.Statement

open ReportSql.Catalog
open ReportSql.Decimal
open ReportSql.Json (Integer Number Value)
open ReportSql.Report
open ReportSql.Sql

/-- The numeral under which a number is shown. -/
inductive ShownAs : Number → Decimal.Numeral → Prop where
  /-- An integer of a signed word is written out. -/
  | integer {n : Integer} {m : Decimal.Numeral} : n.value < 2 ^ 63 → m.text = intText n.value →
      m.isInteger = true → m.toInt = n.value → ShownAs (.integer n) m
  /-- A larger integer is rounded to a double, and written like one. -/
  | rounded {n : Integer} {x : Binary64} {m : Decimal.Numeral} : 2 ^ 63 ≤ n.value →
      Double.ofInt n.value = .finite x → m.isInteger = false → m.toDouble = .finite x →
      ShownAs (.integer n) m
  | real {x : Binary64} {m : Decimal.Numeral} : m.isInteger = false → m.toDouble = .finite x →
      ShownAs (.real x) m

/-- The numeral of an integer is that integer exactly if a signed word holds it. -/
theorem ShownAs.exact_iff {n : Integer} {m : Decimal.Numeral} (h : ShownAs (.integer n) m) :
    (m.isInteger = true ∧ m.toInt = n.value) ↔ n.value < 2 ^ 63 := by
  cases h with
  | integer hsize htext hinteger hvalue => exact ⟨fun _ => hsize, fun _ => ⟨hinteger, hvalue⟩⟩
  | rounded hsize hround hinteger hdouble =>
    constructor
    · rintro ⟨htrue, -⟩
      rw [hinteger] at htrue
      cases htrue
    · intro hsmall
      omega

/-- The literal of a number is written as a numeral under which the number is shown, and nothing of
what stands behind it is read as a part of it. -/
theorem exists_shownAs {d : Dialect} {n : Number} {t : Token} (h : LiteralOf (.number n) t)
    {s : List Char} (hs : StartsWithout (t.continuedBy d) s) :
    ∃ m : Decimal.Numeral, tokenText d t = m.text ∧ readNumeral (m.text ++ s) = (m, s) ∧
      ShownAs n m := by
  cases h with
  | @integer n hsize =>
    obtain ⟨m, htext, hproper, hinteger, hvalue⟩ := exists_numeral_intText n.value
    exact ⟨m, htext, Numeral.readNumeral_text hproper hs,
      .integer hsize htext.symm hinteger hvalue⟩
  | @large n x hsize hround =>
    obtain ⟨m, htext, hproper, hinteger, hdouble⟩ := exists_numeral_write x
    exact ⟨m, htext, Numeral.readNumeral_text hproper hs, .rounded hsize hround hinteger hdouble⟩
  | real x =>
    obtain ⟨m, htext, hproper, hinteger, hdouble⟩ := exists_numeral_write x
    exact ⟨m, htext, Numeral.readNumeral_text hproper hs, .real hinteger hdouble⟩

/-- **The statement for showing to people shows each number that is bound.** In the place of its
placeholder, between what is before and behind it, stands a numeral from which nothing but the
number is read: the same integer if a signed word holds it, and the same double. An integer that is
too large for a signed word is written as the double next to it, which is another number unless the
integer is a double itself. -/
theorem preview_shows_numbers {r : Registry} {c : Config} {o : Options} {k : Compiled}
    (h : compile r c o = .ok k) {i : Nat} {n : Number}
    (hparam : k.parameters[i]? = some (.number n)) :
    ∃ ts₁ ts₂ us₁ us₂ m, k.query.tokens = ts₁ ++ .placeholder (i + 1) :: ts₂ ∧
      Filled 0 (k.parameters.take i) ts₁ us₁ ∧
      Filled (i + 1) (k.parameters.drop (i + 1)) ts₂ us₂ ∧
      k.preview.toList = us₁.flatMap (tokenText k.dialect) ++
        (m.text ++ us₂.flatMap (tokenText k.dialect)) ∧
      readNumeral (m.text ++ us₂.flatMap (tokenText k.dialect)) =
        (m, us₂.flatMap (tokenText k.dialect)) ∧
      ShownAs n m ∧
      ∀ int, n = .integer int →
        ((m.isInteger = true ∧ m.toInt = int.value) ↔ int.value < 2 ^ 63) := by
  have hfilled := filled_of_compile h
  have hspaced : Spaced (k.query.tokens.map (inlined k.parameters)) :=
    spaced_inlined k.query.spaced_tokens
  obtain ⟨ts₁, ts₂, us₁, us₂, t, hts, hus, ht, hbefore, hbehind⟩ := hfilled.exists_place hparam
  rw [Nat.zero_add] at hts hbehind
  rw [hus] at hspaced
  have hstop : StartsWithout (t.continuedBy k.dialect) (us₂.flatMap (tokenText k.dialect)) :=
    startsWithout_of_apart hspaced.right_of_append
  obtain ⟨m, htext, hread, hshown⟩ := exists_shownAs ht hstop
  refine ⟨ts₁, ts₂, us₁, us₂, m, hts, hbefore, hbehind, ?_, hread, hshown, ?_⟩
  · rw [Compiled.preview, statementText, String.toList_ofList, hus, List.flatMap_append,
      List.flatMap_cons, htext]
  · rintro int rfl
    exact hshown.exact_iff

/-- The names of the objects with one of the given numbers. -/
def numberedObjects (numbers : List Number) : Config :=
  { Config.new "objects" with
    selected := [⟨"objects", "object_label", none, none⟩]
    filters := [⟨"filter-1", "objects", "object_id", .isIn,
      some (.array (numbers.map Value.number)), none⟩] }

/-- The largest integer of a signed word, the largest of an unsigned one and a tenth. -/
def borderNumbers : List Number :=
  [.integer ⟨9223372036854775807, by decide, by decide⟩,
    .integer ⟨18446744073709551615, by decide, by decide⟩,
    .real ⟨false, 7205759403792794, -56, by decide⟩]

theorem numberedObjects_border_shown :
    ∃ k, compile .telematics (numberedObjects borderNumbers) newYearOptions = .ok k ∧
      k.parameters = borderNumbers.map Value.number ∧
      (∃ m before behind, k.preview.toList = before ++ (m.text ++ behind) ∧
        readNumeral (m.text ++ behind) = (m, behind) ∧
        m.isInteger = true ∧ m.toInt = 9223372036854775807) ∧
      (∃ m before behind, k.preview.toList = before ++ (m.text ++ behind) ∧
        readNumeral (m.text ++ behind) = (m, behind) ∧
        ¬(m.isInteger = true ∧ m.toInt = 18446744073709551615)) ∧
      ∃ m before behind, k.preview.toList = before ++ (m.text ++ behind) ∧
        readNumeral (m.text ++ behind) = (m, behind) ∧
        m.toDouble = .finite ⟨false, 7205759403792794, -56, by decide⟩ := by
  have hcompiled :
      (compile .telematics (numberedObjects borderNumbers) newYearOptions).toOption.map
        (fun k => k.parameters) = some (borderNumbers.map Value.number) := by
    decide +kernel
  obtain ⟨k, hk, hparams⟩ := exists_ok_of_map hcompiled
  have hsigned := preview_shows_numbers hk (i := 0) (by rw [hparams]; rfl)
  have hunsigned := preview_shows_numbers hk (i := 1) (by rw [hparams]; rfl)
  have htenth := preview_shows_numbers hk (i := 2) (by rw [hparams]; rfl)
  refine ⟨k, hk, hparams, ?_, ?_, ?_⟩
  · obtain ⟨_, _, us₁, us₂, m, -, -, -, htext, hread, -, hexact⟩ := hsigned
    exact ⟨m, _, _, htext, hread, (hexact _ rfl).mpr (by decide)⟩
  · obtain ⟨_, _, us₁, us₂, m, -, -, -, htext, hread, -, hexact⟩ := hunsigned
    exact ⟨m, _, _, htext, hread, fun h => absurd ((hexact _ rfl).mp h) (by decide)⟩
  · obtain ⟨_, _, us₁, us₂, m, -, -, -, htext, hread, hshown, -⟩ := htenth
    cases hshown with
    | real _ hdouble => exact ⟨m, _, _, htext, hread, hdouble⟩

/-- How the report on the largest integer of an unsigned word is shown. -/
def largestShown : String :=
  "SELECT\n  \"objects\".\"object_label\" AS \"objects_object_label\"\n" ++
  "FROM \"raw_business_data\".\"objects\" AS \"objects\"\n" ++
  "WHERE \"objects\".\"object_id\" IN (1.8446744073709552e19)\nLIMIT 1000"

/-- The largest integer of an unsigned word is bound as it is, and shown as the double next to it,
which is greater by one. -/
theorem numberedObjects_largest_rounded :
    ∃ k, compile .telematics
        (numberedObjects [.integer ⟨18446744073709551615, by decide, by decide⟩])
        newYearOptions = .ok k ∧
      k.parameters = [.number (.integer ⟨18446744073709551615, by decide, by decide⟩)] ∧
      k.preview = largestShown ∧
      (readNumeral "1.8446744073709552e19".toList).1.isInteger = false ∧
      (readNumeral "1.8446744073709552e19".toList).1.toDouble =
        Double.ofInt 18446744073709551616 := by
  have hcompiled :
      (compile .telematics
        (numberedObjects [.integer ⟨18446744073709551615, by decide, by decide⟩])
        newYearOptions).toOption.map (fun k => (k.parameters, k.preview)) =
      some ([.number (.integer ⟨18446744073709551615, by decide, by decide⟩)], largestShown) := by
    decide +kernel
  obtain ⟨k, hk, hshown⟩ := exists_ok_of_map hcompiled
  obtain ⟨hparams, hpreview⟩ := Prod.mk.inj hshown
  exact ⟨k, hk, hparams, hpreview, by decide +kernel, by decide +kernel⟩

end ReportSql.Statement
