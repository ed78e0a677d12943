import StrategyDialect.Proofs.Strategy.Declarations
import StrategyDialect.Proofs.Strategy.Frame

/-!
# No match leaves the strategy

A header and a trailer are put around a strategy.  This module shows for each pattern
that is matched against the result that its matches lie inside the strategy
(`Pattern.Confined`), so that the general facts about embedded texts apply.

A match cannot start in the header, for one of two reasons.  A declaration starts with a
bracket, which no header has.  An entry method or a class starts with a keyword that
blanks and a name follow, and a header lacks such phrases **whatever follows it**; that
a match may run from the header into the strategy is excluded at the same time.  And a
match cannot end in the trailer, because the last character of each pattern is one that
no trailer has.

## Main statements

* `Dialect.confined_entryMethodPattern`, `Dialect.confined_entryHeadPattern`
* `Dialect.confined_declarationPattern`
* `Dialect.confined_derivedClassPattern`: this one needs a header without a class
-/

namespace StrategyDialect

namespace Dialect

open Text Cursor Pattern Wrapper

variable {d : Dialect} {a b s : Text}

/-- **No match of the entry method leaves the strategy.** -/
theorem confined_entryMethodPattern (hd : d.Accepted) (ha : Header a) (hb : Trailer b) :
    Confined (d.entryMethodPattern : Pattern Empty) a s b := by
  intro c e htext hmatch
  obtain ⟨-, w, w', hne, hw, -, hreads⟩ := matches_entryMethodPattern_iff.mp hmatch
  obtain ⟨n, m, hname, hn, -⟩ := exists_cons_of_isName hd.entryMethod
  constructor
  · have hphrase : c.Reads ("void".toList ++ w ++ n :: (m ++ w' ++ ['('])) e := by
      simpa [hname] using hreads
    rw [List.append_assoc] at htext
    exact le_offset_of_phrase ha.lacksVoid htext hphrase hne hw hn
  · exact offset_le_of_last htext hreads (hb.not_mem (by decide))

/-- The head of the entry method starts like the entry method and ends with a brace. -/
theorem exists_of_matches_entryHeadPattern {c e : Cursor}
    (h : Matches d.entryHeadPattern c e) :
    ∃ f g : Cursor, Matches (d.entryMethodPattern : Pattern Empty) c f ∧ g.text = c.text ∧
      g.Reads ['{'] e := by
  have hsplit : d.entryHeadPattern = Pattern.sequence
      ([boundary, literal "void".toList, blanks1, literal d.entryMethod,
        blanks, char '(']
        ++ ([run (.noneOf ")".toList), char ')', blanks] ++ [char '{'])) := rfl
  rw [hsplit] at h
  obtain ⟨f, hf, hrest⟩ := matches_sequence_append_iff.mp h
  obtain ⟨g, hg, hbrace⟩ := matches_sequence_append_iff.mp hrest
  obtain ⟨k, hk, hnil⟩ := matches_sequence_cons_iff.mp hbrace
  obtain rfl := matches_sequence_nil_iff.mp hnil
  exact ⟨f, g, hf, hg.text_eq.trans hf.text_eq, matches_char_iff.mp hk⟩

/-- **No head of the entry method leaves the strategy.** -/
theorem confined_entryHeadPattern (hd : d.Accepted) (ha : Header a) (hb : Trailer b) :
    Confined d.entryHeadPattern a s b := by
  intro c e htext hmatch
  obtain ⟨f, g, hf, hg, hbrace⟩ := exists_of_matches_entryHeadPattern hmatch
  have hread : g.Reads ([] ++ ['{']) e := hbrace
  exact ⟨(confined_entryMethodPattern hd ha hb c f htext hf).1,
    offset_le_of_last (hg.trans htext) hread (hb.not_mem (by decide))⟩

/-- The tails of declarations end with a sign that no trailer has, so a declaration
cannot reach into a trailer. -/
private theorem exists_concat_of_mem_tails {t : Text} (h : t ∈ tails) :
    ∃ u z, t = u ++ [z] ∧ z ∉ ['\n', ' ', '}'] := by
  simp only [tails, List.mem_cons, List.not_mem_nil, or_false] at h
  rcases h with rfl | rfl | rfl | rfl
  · exact ⟨[], '{', rfl, by decide⟩
  · exact ⟨['='], '>', rfl, by decide⟩
  · exact ⟨[], '=', rfl, by decide⟩
  · exact ⟨[], ';', rfl, by decide⟩

/-- **No declaration leaves the strategy**: no bracket opens in a header, and the last
character of a declaration is not in a trailer. -/
theorem confined_declarationPattern (hd : d.Accepted) (ha : Header a) (hb : Trailer b) :
    Confined d.declarationPattern a s b := by
  intro c e htext hmatch
  constructor
  · obtain ⟨f, hf, hrest⟩ := matches_sequence_cons_iff.mp hmatch
    obtain ⟨inner, -, hopen⟩ := exists_of_matches_attributePattern hd hf
    obtain ⟨u, hu⟩ := hrest.exists_reads
    have hread : c.Reads ('[' :: (inner ++ [']'] ++ u)) e := by simpa using hopen.trans hu
    rw [List.append_assoc] at htext
    exact le_offset_of_not_mem (ha.not_mem (by decide) (by decide)) htext hread
  · have hsplit : d.declarationPattern =
        Pattern.sequence (d.beforeTail ++ [group .tail tailPattern]) := rfl
    rw [hsplit] at hmatch
    obtain ⟨f, hf, hgroup⟩ := matches_sequence_append_iff.mp hmatch
    obtain ⟨k, hk, hnil⟩ := matches_sequence_cons_iff.mp hgroup
    obtain rfl := matches_sequence_nil_iff.mp hnil
    obtain ⟨t, ht, hread⟩ := matches_tailPattern_iff.mp (matches_group_iff.mp hk)
    obtain ⟨u, z, rfl, hz⟩ := exists_concat_of_mem_tails ht
    have hftext : f.text = a ++ s ++ b := hf.text_eq.trans htext
    exact offset_le_of_last hftext hread (hb.not_mem hz)

/-- No class leaves the strategy, if the header has none. -/
theorem confined_derivedClassPattern (hbase : isWordAt d.baseType.getLast? = true)
    (ha : LacksPhrase "class".toList a) (hb : Trailer b) :
    Confined d.derivedClassPattern a s b := by
  intro c e htext hmatch
  constructor
  · obtain ⟨w, y, x, hne, hw, hx, hphrase⟩ :=
      exists_phrase_of_matches_derivedClassPattern hmatch
    rw [List.append_assoc] at htext
    exact le_offset_of_phrase ha htext hphrase hne hw hx
  · obtain ⟨j, hj, hderivation⟩ := exists_derivation_of_matches_derivedClassPattern hmatch
    obtain ⟨⟨w, q, -, -, hread⟩, -⟩ := matches_derivation_iff.mp hderivation
    cases hlast : d.baseType.getLast? with
    | none => simp [hlast, isWordAt] at hbase
    | some z =>
      have hz : isWord z = true := by simpa [hlast, isWordAt] using hbase
      obtain ⟨v, hv⟩ := List.getLast?_eq_some_iff.mp hlast
      rw [hv, ← List.append_assoc] at hread
      refine offset_le_of_last (hj.trans htext) hread ?_
      intro hmem
      simp [hb.isWord_eq_false hmem] at hz

end Dialect

end StrategyDialect
