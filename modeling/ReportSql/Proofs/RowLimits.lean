import ReportSql.Proofs.Compilation

/-!
# The limit of rows

Every statement ends with a limit of its rows. It is the limit that was asked for, moved into the
range from one to the cap, and a report on it is made exactly if it had to be moved. The limit is
found in unsigned words, reported against a signed one and written as a signed one; since a limit
that was asked for is a signed word, the limit in force is one too, and none of these changes it.
-/

namespace ReportSql.Sql

open ReportSql.Decimal

/-! ## The last clause -/

/-- The pieces of a statement with a limit end with the limit. -/
theorem Query.exists_tokens_limit {q : Query} {n : UInt64} (h : q.limit = some n) :
    ∃ before, q.tokens = before ++ .newline :: limitTokens n := by
  rw [Query.tokens, Query.limitClause, h]
  exact ⟨_, rfl⟩

/-- A limit that a signed word holds is written as it is. -/
theorem limitTokens_eq {n : UInt64} {w : Int64} (h : signedWord? n.toNat = some w) :
    limitTokens n = [.keyword .limit, .space, .integer n.toNat] := by
  rw [limitTokens, h, Option.getD_some, signedWord?_eq_some_iff.mp h]

theorem statementText_append (d : Dialect) (ts us : List Token) :
    statementText d (ts ++ us) = statementText d ts ++ statementText d us := by
  rw [statementText, List.flatMap_append, String.ofList_append]
  rfl

theorem statementText_limit (d : Dialect) (n : Nat) :
    statementText d [.newline, .keyword .limit, .space, .integer n] = "\nLIMIT " ++ n.repr := by
  have hclause : [.newline, .keyword .limit, .space, .integer n].flatMap (tokenText d) =
      "\nLIMIT ".toList ++ Nat.toDigits 10 n := by
    simp [tokenText, Keyword.text, intText, natText]
  rw [statementText, hclause, String.ofList_append, String.ofList_toList]
  rfl

end ReportSql.Sql

namespace ReportSql.Statement

open ReportSql.Catalog
open ReportSql.Decimal
open ReportSql.Report
open ReportSql.Sql

namespace RowLimits

/-- The limit that is asked for: the one that a report sets, or else the standard one, but no more
than the largest signed word. -/
def asked (l : RowLimits) : Option Int64 → Int
  | some n => n.toInt
  | none => min l.standard.toNat Int64.maxValue.toInt

/-- The limit that is asked for, moved into the range from one to the cap. -/
def granted (l : RowLimits) (limit : Option Int64) : Int :=
  min (max (l.asked limit) 1) (max l.cap.toNat 1)

/-- The limit in force is the granted one, and it is reported exactly if it is not the one that was
asked for; the report tells both. -/
structure Granted (l : RowLimits) (limit : Option Int64) (applied : UInt64)
    (clamp : Option LimitClamp) : Prop where
  applied_eq : (applied.toNat : Int) = l.granted limit
  clamp_iff : clamp.isSome = true ↔ l.granted limit ≠ l.asked limit
  reported : ∀ c ∈ clamp, c.requested.toInt = l.asked limit ∧ c.applied = applied

variable (l : RowLimits)

theorem requested_eq (limit : Option Int64) : (l.requested limit).toInt = l.asked limit := by
  have hmax : Int64.maxValue.toInt = 9223372036854775807 := rfl
  cases limit with
  | some n => rfl
  | none =>
    rw [requested, asked]
    cases hword : signedWord? l.standard.toNat with
    | some w =>
      have hw := signedWord?_eq_some_iff.mp hword
      have hlt := w.toInt_lt
      rw [Option.getD_some]
      omega
    | none =>
      have hout := signedWord?_eq_none_iff.mp hword
      rw [Option.getD_none]
      omega

theorem applied_eq (requested : Int64) : ((l.applied requested).toNat : Int) =
    min (max requested.toInt 1) (max l.cap.toNat 1) := by
  have hlt := requested.toInt_lt
  have hone : (1 : UInt64).toNat = 1 := rfl
  rw [applied]
  cases hword : unsignedWord? requested.toInt with
  | some n =>
    have hn := unsignedWord?_eq_some_iff.mp hword
    simp only [UInt64.toNat_min, UInt64.toNat_max, hone]
    omega
  | none =>
    -- only a negative request has no unsigned word
    have hout := unsignedWord?_eq_none_iff.mp hword
    simp only [hone]
    omega

/-- The limit in force is a signed word, since the one that was asked for is. -/
theorem exists_signedWord_apply (limit : Option Int64) :
    ∃ w, signedWord? (l.apply limit).1.toNat = some w := by
  have hlt := (l.requested limit).toInt_lt
  have happlied : ((l.apply limit).1.toNat : Int) = _ := l.applied_eq (l.requested limit)
  obtain ⟨w, hw⟩ := exists_signedWord (n := (l.apply limit).1.toNat) (by omega)
  exact ⟨w, signedWord?_eq_some_iff.mpr hw⟩

theorem apply_granted (limit : Option Int64) :
    Granted l limit (l.apply limit).1 (l.apply limit).2 := by
  have hrequested := l.requested_eq limit
  have happlied : ((l.apply limit).1.toNat : Int) = l.granted limit := by
    rw [granted, ← hrequested]
    exact l.applied_eq _
  -- the limit in force is compared as a signed word
  have hsame : signedWord? (l.apply limit).1.toNat = some (l.requested limit) ↔
      l.granted limit = l.asked limit := by
    rw [signedWord?_eq_some_iff, hrequested, happlied, eq_comm]
  have hclamp : (l.apply limit).2 = if signedWord? (l.apply limit).1.toNat =
      some (l.requested limit) then none else some ⟨l.requested limit, (l.apply limit).1⟩ := rfl
  by_cases h : l.granted limit = l.asked limit
  · rw [if_pos (hsame.mpr h)] at hclamp
    exact ⟨happlied, by simp [hclamp, h], by simp [hclamp]⟩
  · rw [if_neg (mt hsame.mp h)] at hclamp
    exact ⟨happlied, by simp [hclamp, h], by simp [hclamp, hrequested]⟩

end RowLimits

/-! ## Compiled reports -/

/-- **Rows are always limited.** For all limits and every request, the limit in force is the
requested one moved into the range from one to the cap, and the two are reported exactly if they
differ. So it is for every compiled report, and its statement ends with the number of the limit in
force, in pieces as in text: a limit that a statement could not write is never in force. -/
theorem row_limit_granted_and_written :
    (∀ (l : RowLimits) (limit : Option Int64),
      l.Granted limit (l.apply limit).1 (l.apply limit).2) ∧
    ∀ {r : Registry} {c : Config} {o : Options} {k : Compiled}, compile r c o = .ok k →
      o.limits.Granted c.limit k.limit k.clamp ∧
      ∃ before, k.query.tokens =
          before ++ [.newline, .keyword .limit, .space, .integer k.limit.toNat] ∧
        k.sql = statementText k.dialect before ++ "\nLIMIT " ++ k.limit.toNat.repr := by
  refine ⟨RowLimits.apply_granted, ?_⟩
  intro r c o k h
  obtain ⟨v, joins, window, hc⟩ := compile_eq_ok_iff.mp h
  obtain ⟨hlimit, hclamp, hquery⟩ : k.limit = (o.limits.apply c.limit).1 ∧
      k.clamp = (o.limits.apply c.limit).2 ∧ k.query.limit = some k.limit := by
    rw [hc.result]
    exact ⟨rfl, rfl, rfl⟩
  have hgranted := o.limits.apply_granted c.limit
  obtain ⟨w, hw⟩ := o.limits.exists_signedWord_apply c.limit
  rw [← hlimit] at hw
  obtain ⟨before, hbefore⟩ := Query.exists_tokens_limit hquery
  rw [limitTokens_eq hw] at hbefore
  rw [← hlimit, ← hclamp] at hgranted
  refine ⟨hgranted, before, hbefore, ?_⟩
  have hdialect : k.sql = statementText k.dialect k.query.tokens := rfl
  rw [hdialect, hbefore, statementText_append, statementText_limit, String.append_assoc]

/-- Options with the largest limits that a word can hold. -/
def unlimitedOptions : Options :=
  { newYearOptions with limits := ⟨18446744073709551615, 18446744073709551615⟩ }

/-- The largest standard limit is cut to a signed word, which is then no reason to report it. -/
theorem fastDrives_unlimited :
    ∃ k, compile .telematics (fastDrives "100%" 2) unlimitedOptions = .ok k ∧
      k.limit = 9223372036854775807 ∧ k.clamp = none ∧
      ∃ before, k.sql = before ++ "\nLIMIT 9223372036854775807" := by
  have hcompiled : (compile .telematics (fastDrives "100%" 2) unlimitedOptions).toOption.map
      (fun k => k.limit) = some 9223372036854775807 := by decide +kernel
  obtain ⟨k, hk, hlimit⟩ := exists_ok_of_map hcompiled
  obtain ⟨hgranted, before, -, hsql⟩ := row_limit_granted_and_written.2 hk
  -- what is granted is what is asked for: the largest signed word
  have hclamp : ¬k.clamp.isSome = true := fun h => hgranted.clamp_iff.mp h (by decide)
  refine ⟨k, hk, hlimit, by simpa using hclamp, statementText k.dialect before, ?_⟩
  rw [hsql, hlimit, String.append_assoc]
  rfl

end ReportSql.Statement
