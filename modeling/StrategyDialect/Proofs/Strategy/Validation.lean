import StrategyDialect.Proofs.Strategy.Readings
import StrategyDialect.Strategy.Validation

/-!
# Verdicts

A verdict names the rules that a strategy breaks, in their order
(`Validation.errors_ofRules`).  So verdicts are compared rule by rule: if every rule
that one text keeps is kept by another, the errors of the second are among those of the
first (`Validation.sublist_errors_ofRules`).

This is used for lines that are added around a strategy.  A rule that asks for an
occurrence of a pattern is kept by all that the strategy is embedded in
(`Rule.persists_ofPattern`), under two conditions.  The pattern must not look for the
ends of the text, and no pattern of a dialect does.  The seams must be no word
characters, and newlines are none, just as little as there is one at the end of a text.
The second condition is what carries the argument for all names: behind a name that ends
in a numeral such as `²`, the boundary is the word character that follows in the
strategy itself, and no text that is added behind the newline can take it away.

## Main definitions

* `Rule.Persists`: a rule that is kept by whatever a text that keeps it is embedded in

## Main statements

* `Validation.errors_ofRules`, `Validation.isValid_ofRules`: the verdict in terms of the
  rules
* `Rule.persists_ofPattern`, `Dialect.persists_of_mem_rules`: which rules persist
* `Dialect.errors_addedLines_sublist`: added lines break no rule
-/

namespace StrategyDialect

/-! ### The verdict of some rules -/

namespace Validation

variable {rules : List Rule} {source other : Text}

/-- **The errors of a strategy**: of a blank one that it is blank, else the messages of
the rules that it fails. -/
theorem errors_ofRules (rules : List Rule) (source : Text) :
    (ofRules rules source).errors =
      if source.isAllBlank then [blankMessage]
      else (rules.filter fun r => !r.isSatisfied source).map Rule.message := by
  rw [ofRules]
  split
  · rfl
  · show rules.filterMap (·.check source) = _
    rw [← List.filterMap_eq_map, List.filterMap_filter]
    refine List.filterMap_congr fun r _ => ?_
    rw [Rule.check]
    cases r.isSatisfied source <;> rfl

/-- A strategy is valid if it is not blank and keeps all rules. -/
theorem isValid_ofRules :
    (ofRules rules source).isValid = true ↔
      source.isAllBlank = false ∧ ∀ r ∈ rules, r.isSatisfied source = true := by
  rw [isValid, errors_ofRules]
  cases source.isAllBlank with
  | true => simp
  | false => simp [List.filter_eq_nil_iff]

/-- **Fewer broken rules, fewer errors**, in the same order. -/
theorem sublist_errors_ofRules (hother : other.isAllBlank = false)
    (hsource : source.isAllBlank = false)
    (h : ∀ r ∈ rules, r.isSatisfied source = true → r.isSatisfied other = true) :
    (ofRules rules other).errors.Sublist (ofRules rules source).errors := by
  have hbroken : (rules.filter fun r => !r.isSatisfied other) =
      (rules.filter fun r => !r.isSatisfied source).filter fun r =>
        !r.isSatisfied other := by
    rw [List.filter_filter]
    refine List.filter_congr fun r hr => ?_
    cases hkept : r.isSatisfied source with
    | true => simp [h r hr hkept]
    | false => simp
  rw [errors_ofRules, errors_ofRules, if_neg (by simp [hother]),
    if_neg (by simp [hsource]), hbroken]
  exact List.filter_sublist.map Rule.message

end Validation

/-! ### Rules that persist -/

namespace Rule

/-- A rule that is kept by every text that a text which keeps it is embedded in, unless
word characters touch the seams. -/
def Persists (r : Rule) : Prop :=
  ∀ before source after, Seams before after → r.isSatisfied source = true →
    r.isSatisfied (before ++ source ++ after) = true

/-- **What occurs once occurs for good**, if the pattern does not look at the ends of
the text. -/
theorem persists_ofPattern {Label : Type} [DecidableEq Label] {p : Pattern Label}
    (hp : p.isRegular = true) (name message : Text) :
    (ofPattern name message p).Persists :=
  fun _ _ _ hseams hsource => Pattern.occursIn_embed_of_occursIn hseams hp hsource

end Rule

/-! ### Added lines -/

/-- The seams of whole lines.  A text without a header or without a trailer has no seam
there. -/
theorem seams_lines {header trailer : Text}
    (hheader : header = [] ∨ header.getLast? = some '\n')
    (htrailer : trailer = [] ∨ trailer.head? = some '\n') : Seams header trailer := by
  have hnewline : isWordAt (some '\n') = false := by decide
  constructor
  · rcases hheader with rfl | h
    · rfl
    · rw [h, hnewline]
  · rcases htrailer with rfl | h
    · rfl
    · rw [h, hnewline]

namespace Dialect

variable {d : Dialect} {header source trailer : Text}

/-- The rules of a dialect persist, as none of their patterns looks for the ends of a
text. -/
theorem persists_of_mem_rules {r : Rule} (hr : r ∈ d.rules) : r.Persists := by
  simp only [rules, List.mem_cons, List.not_mem_nil, or_false] at hr
  rcases hr with rfl | rfl | rfl
  · exact Rule.persists_ofPattern isRegular_namespacePattern _ _
  · exact Rule.persists_ofPattern isRegular_baseTypePattern _ _
  · exact Rule.persists_ofPattern isRegular_entryMethodPattern _ _

/-- The errors of a strategy that lines are added around are among those of the
strategy, in their order. -/
private theorem errors_append_sublist (hseams : Seams header trailer)
    (hsource : source.isAllBlank = false) :
    (Validation.ofRules d.rules (header ++ source ++ trailer)).errors.Sublist
      (Validation.ofRules d.rules source).errors := by
  refine Validation.sublist_errors_ofRules ?_ hsource fun r hr =>
    persists_of_mem_rules hr header source trailer hseams
  simp only [Text.isAllBlank, List.all_append, Bool.and_eq_false_iff] at hsource ⊢
  exact .inl (.inr hsource)

/-- A valid strategy stays valid when lines are added around it. -/
private theorem isValid_append (hseams : Seams header trailer)
    (hvalid : (Validation.ofRules d.rules source).isValid = true) :
    (Validation.ofRules d.rules (header ++ source ++ trailer)).isValid = true := by
  have herrors :=
    errors_append_sublist (d := d) hseams (Validation.isValid_ofRules.mp hvalid).1
  rw [List.isEmpty_iff.mp hvalid, List.sublist_nil] at herrors
  exact List.isEmpty_iff.mpr herrors

/-- **Added lines break no rule.**  The errors of a strategy with lines before and
behind it are among those of the strategy alone, in the same order.  In particular a
valid strategy stays valid under a header, under a trailer, and under both. -/
theorem errors_addedLines_sublist (d : Dialect) (header source trailer : Text) :
    (source.isAllBlank = false →
      (Validation.ofRules d.rules
        (header ++ ['\n'] ++ source ++ ['\n'] ++ trailer)).errors.Sublist
        (Validation.ofRules d.rules source).errors) ∧
      ((Validation.ofRules d.rules source).isValid = true →
        (Validation.ofRules d.rules (header ++ ['\n'] ++ source)).isValid = true ∧
          (Validation.ofRules d.rules (source ++ ['\n'] ++ trailer)).isValid = true ∧
          (Validation.ofRules d.rules
            (header ++ ['\n'] ++ source ++ ['\n'] ++ trailer)).isValid = true) := by
  have hheader : (header ++ ['\n']).getLast? = some '\n' := List.getLast?_concat ..
  have hboth : Seams (header ++ ['\n']) ('\n' :: trailer) :=
    seams_lines (.inr hheader) (.inr rfl)
  have htext : header ++ ['\n'] ++ source ++ ['\n'] ++ trailer =
      (header ++ ['\n']) ++ source ++ '\n' :: trailer := by simp
  rw [htext]
  refine ⟨errors_append_sublist hboth,
    fun hvalid => ⟨?_, ?_, isValid_append hboth hvalid⟩⟩
  · simpa using isValid_append (seams_lines (.inr hheader) (.inl rfl)) hvalid
  · simpa using isValid_append (seams_lines (.inl rfl) (.inr rfl)) hvalid

/-- A base type that ends in no word character.  The rule for it asks for a word
character behind the name, and a line that is added does not come between. -/
theorem errors_addedLines_sublist_squared :
    let d : Dialect := { powerLanguage with baseType := "Signal²".toList }
    let broken : Text := "class A : Signal²X \x7b \x7d".toList
    let valid : Text :=
      "namespace PowerLanguage.Strategy \x7b void CalcBar() \x7b \x7d class A : Signal²X".toList
    let header : Text := "// namespace PowerLanguage.Strategy".toList
    let trailer : Text := "X".toList
    d.check = .ok () ∧ broken.isAllBlank = false ∧
    (Validation.ofRules d.rules valid).isValid = true ∧
      (Validation.ofRules d.rules
        (header ++ ['\n'] ++ broken ++ ['\n'] ++ trailer)).errors.Sublist
        (Validation.ofRules d.rules broken).errors ∧
      (Validation.ofRules d.rules (valid ++ ['\n'] ++ trailer)).isValid = true := by
  intro d broken valid header trailer
  have hbroken : broken.isAllBlank = false := by decide
  have hvalid : (Validation.ofRules d.rules valid).isValid = true := by decide +kernel
  exact ⟨by decide, hbroken, hvalid,
    (errors_addedLines_sublist d header broken trailer).1 hbroken,
    ((errors_addedLines_sublist d header valid trailer).2 hvalid).2.1⟩

end Dialect

end StrategyDialect
