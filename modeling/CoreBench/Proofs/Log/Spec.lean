import CoreBench.Log.Spec
import CoreBench.Proofs.Log.Targets
import CoreBench.Proofs.Text.Parts
import Mathlib.Logic.Relation

/-!
Specifications as a sequence of calls builds them, and the filters that they come to under a list of entries. One call
puts directives ahead of those that are there, another one puts them behind, and a list of entries replaces them all
as soon as one of its entries is a directive.

What is proved:
  * `build_directives`, `build_level`: what a sequence of calls leaves, in terms of the calls alone;
  * `mapM_read?_builtin`: each directive that the programs bring along is read, whatever the dialect;
  * `valid_eq_taken`: the valid directives of a list are those of its entries, in order;
  * `valid_eq_of_edits`: blank and invalid entries, and blanks around an entry, have no meaning;
  * `passes_of_bare`: a bare level alone in a list is the only limit there is;
  * `build_filter`: all of this, for every dialect that does what is relied on, every sequence of calls and every list.
-/

namespace CoreBench.Log

open CoreBench.Text

/-- Only levels admit anything. -/
theorem Limit.admits_iff_exists {limit : Limit} {level : Level} :
    limit.admits level = true ↔ ∃ l, limit = .upTo l ∧ level.rank ≤ l.rank := by
  cases limit with
  | off => exact ⟨nofun, fun ⟨_, h, _⟩ => nomatch h⟩
  | upTo m =>
    rw [Limit.admits_iff]
    exact ⟨fun h => ⟨m, rfl, h⟩, fun ⟨_, hm, h⟩ => Limit.upTo.inj hm ▸ h⟩

/-- What gives something of each element of a list gives a list of all that. -/
theorem mapM_eq_some_pmap {α β : Type} {f : α → Option β} {l : List α} (h : ∀ a ∈ l, (f a).isSome = true) :
    l.mapM f = some (l.pmap (fun a ha => (f a).get ha) h) := by
  induction l with
  | nil => rfl
  | cons a l ih =>
    obtain ⟨ha, hl⟩ := List.forall_mem_cons.mp h
    rw [List.mapM_cons, ih hl, ← Option.some_get ha]
    rfl

section Dialects

variable [Dialect]

/-! ## Calls -/

/-- A call on a specification that is being built. -/
inductive Call where
  | level (level : Level)
  | defaults
  | directives (more : List Directive)

namespace Call

/-- The level that a call sets, if it sets one. -/
def level? : Call → Option Level
  | .level l => some l
  | _ => none

/-- The directives that a call brings along. -/
def more : Call → List Directive
  | .directives ds => ds
  | _ => []

/-- Whether a call is for the built-in directives. -/
def isDefaults : Call → Bool
  | .defaults => true
  | _ => false

end Call

namespace Spec

/-- The specification after a call. -/
def call (s : Spec) : Call → Spec
  | .level l => s.withLevel l
  | .defaults => s.withDefaults
  | .directives ds => s.withDirectives ds

/-- The specification that a sequence of calls builds. -/
def build (own : List Directive) (calls : List Call) : Spec :=
  calls.foldl call (new own)

/-- The built-in directives, once for each call for them. -/
def defaultsOf (calls : List Call) : List Directive :=
  (List.replicate (calls.countP Call.isDefaults) builtin).flatten

/-- A call for the built-in directives puts them behind those of later calls for them. -/
theorem defaultsOf_cons_defaults (calls : List Call) :
    defaultsOf (.defaults :: calls) = defaultsOf calls ++ builtin := by
  rw [defaultsOf, List.countP_cons_of_pos rfl, List.replicate_succ', List.flatten_append, List.flatten_singleton]
  rfl

theorem defaultsOf_cons_of_not {c : Call} (h : ¬ c.isDefaults = true) (calls : List Call) :
    defaultsOf (c :: calls) = defaultsOf calls := by
  rw [defaultsOf, List.countP_cons_of_neg h, defaultsOf]

/-- What a run of calls leaves of the directives that it starts with: they stay together, in the middle. -/
theorem directives_foldl (calls : List Call) (s : Spec) :
    (calls.foldl call s).directives = defaultsOf calls ++ s.directives ++ calls.flatMap Call.more := by
  induction calls generalizing s with
  | nil => simp [defaultsOf]
  | cons c calls ih =>
    rw [List.foldl_cons, ih, List.flatMap_cons]
    cases c with
    | level l =>
      rw [defaultsOf_cons_of_not (c := .level l) Bool.false_ne_true]
      rfl
    | defaults =>
      calc defaultsOf calls ++ (builtin ++ s.directives) ++ calls.flatMap Call.more
          = defaultsOf calls ++ builtin ++ s.directives ++ calls.flatMap Call.more := by
            rw [List.append_assoc (defaultsOf calls) builtin]
        _ = defaultsOf (.defaults :: calls) ++ s.directives ++ ([] ++ calls.flatMap Call.more) := by
            rw [defaultsOf_cons_defaults, List.nil_append]
    | directives ds =>
      calc defaultsOf calls ++ (s.directives ++ ds) ++ calls.flatMap Call.more
          = defaultsOf calls ++ s.directives ++ (ds ++ calls.flatMap Call.more) := by
            simp only [List.append_assoc]
        _ = defaultsOf (.directives ds :: calls) ++ s.directives ++ (ds ++ calls.flatMap Call.more) := by
            rw [defaultsOf_cons_of_not (c := .directives ds) Bool.false_ne_true]

/-- What a run of calls leaves of the level that it starts with: the last level that is set takes its place. -/
theorem level_foldl (calls : List Call) (s : Spec) :
    (calls.foldl call s).level = (calls.filterMap Call.level?).getLastD s.level := by
  induction calls generalizing s with
  | nil => rfl
  | cons c calls ih =>
    rw [List.foldl_cons, ih]
    cases c with
    | level l =>
      have hset : (Call.level l :: calls).filterMap Call.level? = l :: calls.filterMap Call.level? := rfl
      rw [hset, List.getLastD_cons]
      rfl
    | defaults => rfl
    | directives ds => rfl

theorem build_directives (own : List Directive) (calls : List Call) :
    (build own calls).directives = defaultsOf calls ++ own ++ calls.flatMap Call.more :=
  directives_foldl calls (new own)

theorem build_level (own : List Directive) (calls : List Call) :
    (build own calls).level = (calls.filterMap Call.level?).getLastD .info :=
  level_foldl calls (new own)

end Spec

/-! ## Entries -/

/-- Each directive that the programs bring along is read. -/
theorem mapM_read?_builtin : builtinEntries.mapM (fun e => Directive.read? (trim e.toList)) = some builtin :=
  mapM_eq_some_pmap Dialect.read?_builtin

/-- The directive that an entry stands for: blanks around it have no meaning, and nothing is no directive. -/
def directive? (e : List Char) : Option Directive :=
  if trim e = [] then none else Directive.read? (trim e)

theorem directive?_of_allBlank {e : List Char} (h : allBlank e = true) : directive? e = none :=
  if_pos (trim_eq_nil_iff.mpr h)

theorem directive?_of_read?_eq_none {e : List Char} (h : Directive.read? (trim e) = none) : directive? e = none := by
  rw [directive?, h, ite_self]

theorem directive?_of_named (h : Dialect.Lawful) {e : List Char} {limit : Limit}
    (he : Limit.named? (trim e) = some limit) : directive? e = some (Dialect.bare limit) := by
  have hne : trim e ≠ [] := by
    intro hnil
    rw [hnil] at he
    cases (he : none = some limit)
  rw [directive?, if_neg hne]
  exact h.read?_named he

/-- The directives among entries. What is none is passed over. -/
def taken (es : List (List Char)) : List Directive :=
  es.filterMap directive?

theorem taken_append (es fs : List (List Char)) : taken (es ++ fs) = taken es ++ taken fs :=
  List.filterMap_append

theorem taken_cons_of_none {e : List Char} (h : directive? e = none) (es : List (List Char)) :
    taken (e :: es) = taken es :=
  List.filterMap_cons_none h

theorem taken_cons_congr {e e' : List Char} (h : trim e = trim e') (es : List (List Char)) :
    taken (e :: es) = taken (e' :: es) := by
  have hsame : directive? e = directive? e' := by rw [directive?, h, directive?]
  rw [taken, List.filterMap_cons, hsame, taken, List.filterMap_cons]

theorem valid_eq_taken {r : List Char} {es : List (List Char)} (h : Parted ',' r es) : valid r = taken es := by
  rw [valid, entries, parted_iff.mp h, List.filterMap_filter, List.filterMap_map]
  refine congrArg (List.filterMap · es) (funext fun e => ?_)
  by_cases hnil : trim e = []
  · simp [directive?, hnil]
  · simp [directive?, hnil]

/-- What may be done to a list without a change of its meaning: an entry is put in that has blanks only or is no
directive, or blanks are put around an entry. -/
inductive Edit : List Char → List Char → Prop
  | blank {r r' e : List Char} {es fs : List (List Char)} : Parted ',' r (es ++ fs) → Parted ',' r' (es ++ e :: fs) →
      allBlank e = true → Edit r r'
  | invalid {r r' e : List Char} {es fs : List (List Char)} : Parted ',' r (es ++ fs) →
      Parted ',' r' (es ++ e :: fs) → Directive.read? (trim e) = none → Edit r r'
  | padded {r r' u e v : List Char} {es fs : List (List Char)} : Parted ',' r (es ++ e :: fs) →
      Parted ',' r' (es ++ (u ++ (e ++ v)) :: fs) → allBlank u = true → allBlank v = true → Edit r r'

theorem taken_insert {e : List Char} (h : directive? e = none) (es fs : List (List Char)) :
    taken (es ++ e :: fs) = taken (es ++ fs) := by
  rw [taken_append, taken_cons_of_none h, taken_append]

theorem Edit.valid_eq {r r' : List Char} (h : Edit r r') : valid r' = valid r := by
  cases h with
  | blank hr hr' he => rw [valid_eq_taken hr', valid_eq_taken hr, taken_insert (directive?_of_allBlank he)]
  | invalid hr hr' he => rw [valid_eq_taken hr', valid_eq_taken hr, taken_insert (directive?_of_read?_eq_none he)]
  | @padded u e v es fs hr hr' hu hv =>
    have htrim : trim (u ++ (e ++ v)) = trim e := by rw [trim_append_left hu, trim_append_right hv]
    rw [valid_eq_taken hr', valid_eq_taken hr, taken_append, taken_cons_congr htrim, ← taken_append]

/-- Edits, made and taken back in any number and order. -/
theorem valid_eq_of_edits {r r' : List Char} (h : Relation.EqvGen Edit r r') : valid r' = valid r := by
  induction h with
  | rel r r' h => exact h.valid_eq
  | refl r => rfl
  | symm r r' _ ih => exact ih.symm
  | trans r r' r'' _ _ ih ih' => exact ih'.trans ih

namespace Spec

theorem effective_of_nil {r : List Char} (h : valid r = []) (s : Spec) : s.effective r = s.directives := by
  rw [effective, h]
  rfl

theorem effective_of_ne_nil {r : List Char} (h : valid r ≠ []) (s : Spec) : s.effective r = valid r := by
  rw [effective, if_neg (mt List.isEmpty_iff.mp h)]

theorem effective_congr {r r' : List Char} (h : valid r' = valid r) (s : Spec) : s.effective r' = s.effective r := by
  rw [effective, effective, h]

/-! ## A limit on everything -/

/-- A limit on everything that is in effect replaces the level of the specification. -/
theorem passes_of_bare (h : Dialect.Lawful) {r : List Char} {limit : Limit} (hr : valid r = [Dialect.bare limit])
    (s : Spec) (event : Event) : (s.filter r).passes event = limit.admits event.level := by
  have heffective : s.effective r = [Dialect.bare limit] := by
    rw [effective_of_ne_nil (hr ▸ List.cons_ne_nil _ _), hr]
  calc (s.filter r).passes event
      = Filter.passes (Filter.addAll Dialect.empty [Dialect.bare (.upTo s.level), Dialect.bare limit]) event := by
        rw [filter, heffective]
        rfl
    _ = Filter.passes (Filter.addAll Dialect.empty [Dialect.bare limit]) event :=
        h.passes_replaced Dialect.empty [] [] event (h.scope_bare _ _)
    _ = limit.admits event.level := h.passes_bare limit event

/-- **What is in effect after any sequence of calls, under any list.** The directives of the specification are the
built-in ones, each of which is read, once for each call for them and wherever these calls stand, then those that it is
made with, and then those of the calls in order; its level is the last one that is set. A list without a directive
among its entries leaves them in effect. Any other list puts its own directives in their place, in order, so that blank
and invalid entries and blanks around an entry change nothing. If its only directive puts a limit on everything, as the
name of a level does, an event of any target passes exactly if it is as severe as that level, and none passes if the
limit is `off`. -/
theorem build_filter (h : Dialect.Lawful) (own : List Directive) (calls : List Call) (r : List Char) :
    (builtinEntries.mapM (fun e => Directive.read? (trim e.toList)) = some builtin ∧
      (build own calls).directives =
        (List.replicate (calls.countP Call.isDefaults) builtin).flatten ++ own ++ calls.flatMap Call.more ∧
      (build own calls).level = (calls.filterMap Call.level?).getLastD .info) ∧
    (∃ es, Parted ',' r es ∧
      (taken es = [] → (build own calls).effective r = (build own calls).directives) ∧
      (taken es ≠ [] → (build own calls).effective r = taken es) ∧
      ∀ limit, taken es = [Dialect.bare limit] → ∀ event : Event,
        ((build own calls).filter r).passes event = true ↔ ∃ l, limit = .upTo l ∧ event.level.rank ≤ l.rank) ∧
    (∀ es e fs limit, Parted ',' r (es ++ e :: fs) → taken (es ++ fs) = [] → Limit.named? (trim e) = some limit →
      ∀ event : Event,
        ((build own calls).filter r).passes event = true ↔ ∃ l, limit = .upTo l ∧ event.level.rank ≤ l.rank) ∧
    ∀ r', Relation.EqvGen Edit r r' → (build own calls).effective r' = (build own calls).effective r := by
  have hparts : Parted ',' r (pieces ',' r) := parted_iff.mpr rfl
  have hvalid : valid r = taken (pieces ',' r) := valid_eq_taken hparts
  have hbare : ∀ limit, valid r = [Dialect.bare limit] → ∀ event : Event,
      ((build own calls).filter r).passes event = true ↔ ∃ l, limit = .upTo l ∧ event.level.rank ≤ l.rank := by
    intro limit hlimit event
    rw [passes_of_bare h hlimit]
    exact Limit.admits_iff_exists
  refine ⟨⟨mapM_read?_builtin, build_directives own calls, build_level own calls⟩,
    ⟨pieces ',' r, hparts, fun hnone => ?_, fun hsome => ?_, fun limit hlimit => hbare limit (hvalid.trans hlimit)⟩,
    fun es e fs limit hes hothers he => hbare limit ?_, fun r' hedits => effective_congr (valid_eq_of_edits hedits) _⟩
  · exact effective_of_nil (hvalid.trans hnone) _
  · rw [← hvalid] at hsome ⊢
    exact effective_of_ne_nil hsome _
  · -- The entries on both sides have nothing to add.
    obtain ⟨hes', hfs⟩ := List.append_eq_nil_iff.mp ((taken_append es fs).symm.trans hothers)
    rw [valid_eq_taken hes, taken_append, hes', taken, List.filterMap_cons_some (directive?_of_named h he)]
    exact congrArg (_ :: ·) hfs

end Spec

end Dialects

/-- Rules for targets, and a list in which the one rule is the name of a level: it stands in capitals and between
blanks, ahead of an entry with blanks only and behind one that is no rule. -/
theorem Spec.build_filter_debug :
    let r := "trace_stats=loud, DEBUG , ".toList
    let s := Spec.build [⟨some "config", .off⟩] [.defaults, .level .warn]
    Dialect.Lawful ∧ Parted ',' r (["trace_stats=loud".toList] ++ " DEBUG ".toList :: [[' ']]) ∧
      taken ["trace_stats=loud".toList, [' ']] = [] ∧ Limit.named? (trim " DEBUG ".toList) = some (.upTo .debug) ∧
      (∀ event : Event, (s.filter r).passes event = true ↔ event.level.rank ≤ Level.debug.rank) ∧
      (s.filter r).admits "config" .debug = true ∧ (s.filter r).admits "config" .trace = false := by
  intro r s
  have hparted : Parted ',' r (["trace_stats=loud".toList] ++ " DEBUG ".toList :: [[' ']]) :=
    parted_iff.mpr (by decide)
  have hothers : taken ["trace_stats=loud".toList, [' ']] = [] := by decide
  have hnamed : Limit.named? (trim " DEBUG ".toList) = some (.upTo .debug) := by decide
  have hpasses : ∀ event : Event, (s.filter r).passes event = true ↔ event.level.rank ≤ Level.debug.rank := by
    intro event
    rw [(Spec.build_filter Targets.lawful [⟨some "config", .off⟩] [.defaults, .level .warn] r).2.2.1 _ _ _ _ hparted
      hothers hnamed event]
    exact ⟨fun ⟨l, hl, hle⟩ => Limit.upTo.inj hl ▸ hle, fun hle => ⟨_, rfl, hle⟩⟩
  refine ⟨Targets.lawful, hparted, hothers, hnamed, hpasses, (hpasses _).mpr (by decide), ?_⟩
  exact Bool.eq_false_iff.mpr fun h => absurd ((hpasses _).mp h) (by decide)

end CoreBench.Log
