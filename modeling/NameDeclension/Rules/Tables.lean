/-
# NameDeclension.Rules.Tables — the rules of Russian names

Four tables, one for each set of rules. Their order matters: the first rule whose guard a word
passes decides, so single words and longer endings stand above the shorter endings that would take
them too.
-/
import NameDeclension.Rules.Basic
import NameDeclension.Grammar.RuleSet

namespace NameDeclension

open Rule

namespace Rules

/-! ## First names of men -/

/-- Rules for first names of men. Two names lose a vowel (Павел, Павла; Лев, Льва). -/
def maleFirstName : List Rule := [
  ⟨"павел", equals "павел", endings "--ла" "--лу" "--ла" "--лом" "--ле"⟩,
  ⟨"лев", equals "лев", endings "--ьва" "--ьву" "--ьва" "--ьвом" "--ьве"⟩,
  ⟨"sibilant", ends "[жчшщц]", endings "а" "у" "а" "ем" "е"⟩,
  ⟨"vowel + й", .all [ends "й", ends "[аеёоуяю]-"], endings "-я" "-ю" "-я" "-ем" "-е"⟩,
  ⟨"й", ends "й", endings "-я" "-ю" "-я" "-ем" "-и"⟩,
  ⟨"hard consonant", ends "[бвгджзлмнрйпфктшсхцчщ]", endings "а" "у" "а" "ом" "е"⟩,
  ⟨"soft consonant", ends "[бвгджзлмнрйпфктшсхцчщ][ь]", endings "-я" "-ю" "-я" "-ем" "-е"⟩,
  ⟨"а after hard stem", .all [ends "а", ends "![жчшщгкхц]-"],
    endings "-ы" "-е" "-у" "-ой" "-е"⟩,
  ⟨"а", ends "а", endings "-и" "-е" "-у" "-ей" "-е"⟩,
  ⟨"ия", .all [ends "я", ends "и-", .not (.syllables 2)], endings "-и" "-и" "-ю" "-ей" "-и"⟩,
  ⟨"я", ends "я", endings "-и" "-е" "-ю" "-ей" "-е"⟩]

/-! ## First names of women -/

/-- Rules for first names of women. Only the one letter а reaches the rule of that label. -/
def femaleFirstName : List Rule := [
  ⟨"а after hard stem", .all [ends "а", ends "![гкхцжчшщ]-"],
    endings "-ы" "-е" "-у" "-ой" "-е"⟩,
  ⟨"а after sibilant or velar", .all [ends "а", ends "[гкхцжчшщ]-"],
    endings "-и" "-е" "-у" "-ой" "-е"⟩,
  ⟨"а", ends "а", endings "-ы" "-е" "-у" "-ей" "-е"⟩,
  ⟨"two-syllable ия", .all [ends "я", ends "и-", .syllables 2],
    endings "-и" "-е" "-ю" "-ей" "-е"⟩,
  ⟨"ия", .all [ends "я", ends "и-"], endings "-и" "-и" "-ю" "-ей" "-и"⟩,
  ⟨"я", ends "я", endings "-и" "-е" "-ю" "-ей" "-е"⟩,
  ⟨"soft consonant", ends "[бвгджзлмнрйпфктшсхцчщ][яёюеиь]",
    endings "-и" "-и" "" "-ью" "-и"⟩,
  ⟨"sibilant", ends "[жчшщ]", endings "и" "и" "" "ью" "и"⟩]

/-! ## Surnames of men -/

/-- Rules for surnames of men. Those made from a genitive plural (Черных, Седых) do not change. -/
def maleSurname : List Rule := [
  ⟨"ов/ев/ин", .any [ends "[ое]в", ends "ин"], endings "а" "у" "а" "ым" "е"⟩,
  ⟨"ой", ends "ой", endings "--ого" "--ому" "--ого" "--ым" "--ом"⟩,
  ⟨"ый", ends "ый", endings "--ого" "--ому" "--ого" "--ым" "--ом"⟩,
  ⟨"ий", ends "ий", endings "--ого" "--ому" "--ого" "--им" "--ом"⟩,
  ⟨"hard consonant", .all [.not (ends "[иы]х"), ends "[бвгджзлмнрпфктшсхцчщ]"],
    endings "а" "у" "а" "ом" "е"⟩,
  ⟨"й/ь", ends "[йь]", endings "-я" "-ю" "-я" "-ем" "-е"⟩]

/-! ## Surnames of women -/

/-- Rules for surnames of women. -/
def femaleSurname : List Rule := [
  ⟨"ова/ева/ина", .any [ends "[ое]ва", ends "ина"], endings "-ой" "-ой" "-у" "-ой" "-ой"⟩,
  ⟨"ая", ends "ая", endings "--ой" "--ой" "--ую" "--ой" "--ой"⟩]

end Rules

/-- The **rules of a set**, the first one first. -/
def RuleSet.rules : RuleSet → List Rule
  | .maleFirstName => Rules.maleFirstName
  | .femaleFirstName => Rules.femaleFirstName
  | .maleSurname => Rules.maleSurname
  | .femaleSurname => Rules.femaleSurname

/-- The rule of the given name, if its set has so many. -/
def RuleId.rule? (id : RuleId) : Option Rule := id.ruleSet.rules[id.index.toNat]?

end NameDeclension
