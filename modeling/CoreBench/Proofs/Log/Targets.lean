import CoreBench.Log.Directive
import CoreBench.Proofs.Text.Cut
import CoreBench.Proofs.Text.Decimal

/-!
The dialect of rules for targets. The names of the limits are read in letters of either case, and the rule that governs
a target is found in one pass, which is a fold here, so that the passes over two filters can be followed side by side.

What is proved:
  * `read?_named`: the name of a limit is the rule that puts it on everything;
  * `governing_replaced`: a rule replaces an earlier one with the same target, wherever the two stand;
  * `lawful`: the dialect does what is relied on.
-/

namespace CoreBench.Log.Targets

open CoreBench.Text

/-! ## Names of limits -/

/-- A letter of either case. -/
def IsLetter (c : Char) : Prop :=
  ('a' ≤ c ∧ c ≤ 'z') ∨ ('A' ≤ c ∧ c ≤ 'Z')

theorem isLetter_of_toLower {c : Char} (h : c.toLower.isLower = true) : IsLetter c := by
  unfold Char.toLower at h
  split at h
  · next hupper => exact .inr hupper
  · obtain ⟨hlo, hhi⟩ := Bool.and_eq_true_iff.mp h
    exact .inl ⟨of_decide_eq_true hlo, of_decide_eq_true hhi⟩

theorem IsLetter.le_toNat {c : Char} (h : IsLetter c) : 65 ≤ c.toNat := by
  rcases h with ⟨hlo, -⟩ | ⟨hlo, -⟩
  · exact Nat.le_trans (by decide) (UInt32.le_iff_toNat_le.mp hlo)
  · exact UInt32.le_iff_toNat_le.mp hlo

theorem IsLetter.startsRule {c : Char} (h : IsLetter c) : startsRule c = true := by
  rcases h with ⟨hlo, hhi⟩ | ⟨hlo, hhi⟩ <;> simp [Targets.startsRule, isAlphanumeric, hlo, hhi]

/-- No literal of a number starts with a letter. -/
theorem readNat_of_isLetter {c : Char} (h : IsLetter c) (bound : Nat) (s : List Char) (n : Nat) :
    readNat bound (c :: s) ≠ .ok n := by
  intro hread
  have hle := h.le_toNat
  obtain ⟨hliteral, -⟩ := readNat_eq_ok_iff.mp hread
  cases hliteral with
  | unsigned hdigits =>
    obtain ⟨-, hhi⟩ := toNat_of_isDigit (hdigits.isDigit c List.mem_cons_self)
    omega
  | plus hdigits => exact absurd hle (by decide)

/-- A name of a limit is made of letters. -/
theorem isLetter_of_named {s : List Char} {limit : Limit} (h : Limit.named? s = some limit) :
    s ≠ [] ∧ ∀ c ∈ s, IsLetter c := by
  obtain ⟨l₁, l₂, hnames, -⟩ := List.lookup_eq_some_iff.mp h
  have hmem : (String.ofList (s.map Char.toLower), limit) ∈ limitNames := by
    rw [hnames]
    exact List.mem_append_right l₁ List.mem_cons_self
  have hall : (limitNames.all fun e => !e.1.toList.isEmpty && e.1.toList.all Char.isLower) = true := by decide
  obtain ⟨hne, hlower⟩ := Bool.and_eq_true_iff.mp (List.all_eq_true.mp hall _ hmem)
  rw [String.toList_ofList] at hne hlower
  refine ⟨fun hs => ?_, fun c hc => ?_⟩
  · rw [hs] at hne
    cases hne
  · exact isLetter_of_toLower (List.all_eq_true.mp hlower c.toLower (List.mem_map_of_mem hc))

/-- The name of a limit is the rule that puts it on everything. -/
theorem read?_named {s : List Char} {limit : Limit} (h : Limit.named? s = some limit) :
    Rule.read? s = some ⟨none, limit⟩ := by
  obtain ⟨hne, hletters⟩ := isLetter_of_named h
  have hsep : '=' ∉ s := fun hmem => absurd (hletters _ hmem).le_toNat (by decide)
  obtain ⟨c, t, rfl⟩ := List.exists_cons_of_ne_nil hne
  have hc : IsLetter c := hletters c List.mem_cons_self
  have hlimit : readLimit? (c :: t) = some limit := by
    rw [readLimit?]
    cases hread : readNat max64 (c :: t) with
    | ok n => exact absurd hread (readNat_of_isLetter hc _ _ n)
    | error f => exact h
  rw [Rule.read?, if_pos hc.startsRule, cut?_eq_none_of_not_mem hsep, hlimit]

/-! ## Passes -/

theorem Rule.appliesTo_congr {d e : Rule} (h : d.target = e.target) (target : String) :
    d.appliesTo target = e.appliesTo target := by
  rw [Rule.appliesTo, Rule.appliesTo, h]

theorem Rule.weight_congr {d e : Rule} (h : d.target = e.target) : d.weight = e.weight := by
  rw [Rule.weight, Rule.weight, h]

/-- The most specific rule so far, once another one is passed. -/
def pass (target : String) (best : Option Rule) (d : Rule) : Option Rule :=
  if d.appliesTo target && (best.elim true fun b => b.weight ≤ d.weight) then some d else best

theorem governingFrom_eq_foldl (target : String) (best : Option Rule) (ds : List Rule) :
    governingFrom target best ds = ds.foldl (pass target) best := by
  induction ds generalizing best with
  | nil => rfl
  | cons d ds ih =>
    rw [List.foldl_cons, ← ih, governingFrom, pass]
    split <;> rfl

theorem governing_eq_foldl (ds : List Rule) (target : String) : governing ds target = ds.foldl (pass target) none :=
  governingFrom_eq_foldl target none ds

/-- What is most specific so far, if anything, is no more specific than that. -/
def AtMost (best : Option Rule) (weight : Nat) : Prop :=
  ∀ b ∈ best, b.weight ≤ weight

theorem atMost_none (weight : Nat) : AtMost none weight :=
  fun _ h => nomatch h

theorem atMost_some {b : Rule} {weight : Nat} (h : b.weight ≤ weight) : AtMost (some b) weight :=
  fun _ hb => Option.some.inj hb ▸ h

theorem AtMost.mono {best : Option Rule} {n m : Nat} (h : AtMost best n) (hle : n ≤ m) : AtMost best m :=
  fun b hb => Nat.le_trans (h b hb) hle

theorem pass_of_not_appliesTo {target : String} {d : Rule} (h : d.appliesTo target = false)
    (best : Option Rule) : pass target best d = best := by
  rw [pass, h, Bool.false_and, if_neg Bool.false_ne_true]

theorem pass_of_atMost {target : String} {best : Option Rule} {d : Rule}
    (h : d.appliesTo target = true) (hbest : AtMost best d.weight) : pass target best d = some d := by
  have hwins : (best.elim true fun b => decide (b.weight ≤ d.weight)) = true := by
    cases best with
    | none => rfl
    | some b => exact decide_eq_true (hbest b rfl)
  rw [pass, h, hwins, Bool.and_true, if_pos rfl]

theorem pass_of_weight_lt {target : String} {b d : Rule} (h : d.weight < b.weight) :
    pass target (some b) d = some b := by
  have hloses : decide (b.weight ≤ d.weight) = false := decide_eq_false (Nat.not_le.mpr h)
  rw [pass, Option.elim_some, hloses, Bool.and_false, if_neg Bool.false_ne_true]

theorem AtMost.pass {best : Option Rule} {weight : Nat} (h : AtMost best weight) (target : String)
    {d : Rule} (hd : d.weight ≤ weight) : AtMost (pass target best d) weight := by
  rw [Targets.pass]
  split
  · exact atMost_some hd
  · exact h

/-- Two passes that agree, or the first of them is at `d`, and the second at nothing that is more specific. -/
def Leads (d : Rule) (best best' : Option Rule) : Prop :=
  best = best' ∨ best = some d ∧ AtMost best' d.weight

theorem Leads.pass {d : Rule} {best best' : Option Rule} (h : Leads d best best') (target : String)
    (x : Rule) : Leads d (pass target best x) (pass target best' x) := by
  obtain rfl | ⟨rfl, hbest'⟩ := h
  · exact Or.inl rfl
  cases happ : x.appliesTo target with
  | false =>
    rw [pass_of_not_appliesTo happ, pass_of_not_appliesTo happ]
    exact Or.inr ⟨rfl, hbest'⟩
  | true =>
    by_cases hle : d.weight ≤ x.weight
    · -- The rule overtakes `d`, and with it all that is less specific.
      refine Or.inl ?_
      rw [pass_of_atMost happ (atMost_some hle), pass_of_atMost happ (hbest'.mono hle)]
    · have hlt : x.weight < d.weight := Nat.lt_of_not_le hle
      exact Or.inr ⟨pass_of_weight_lt hlt, hbest'.pass target (Nat.le_of_lt hlt)⟩

theorem Leads.foldl {d : Rule} {best best' : Option Rule} (h : Leads d best best') (target : String)
    (g : List Rule) : Leads d (g.foldl (Targets.pass target) best) (g.foldl (Targets.pass target) best') := by
  induction g generalizing best best' with
  | nil => exact h
  | cons x g ih => exact ih (h.pass target x)

/-- A pass that comes by `d` leads by it. -/
theorem leads_pass {target : String} {d : Rule} (happ : d.appliesTo target = true) (best : Option Rule) :
    Leads d (pass target best d) best := by
  cases best with
  | none => exact Or.inr ⟨pass_of_atMost happ (atMost_none _), atMost_none _⟩
  | some b =>
    by_cases hle : b.weight ≤ d.weight
    · exact Or.inr ⟨pass_of_atMost happ (atMost_some hle), atMost_some hle⟩
    · exact Or.inl (pass_of_weight_lt (Nat.lt_of_not_le hle))

/-- A rule as specific as `d` ends its lead. -/
theorem Leads.pass_eq {d e : Rule} {best best' : Option Rule} (h : Leads d best best') {target : String}
    (happ : e.appliesTo target = true) (hweight : d.weight = e.weight) :
    Targets.pass target best e = Targets.pass target best' e := by
  obtain rfl | ⟨rfl, hbest'⟩ := h
  · rfl
  · rw [pass_of_atMost happ (atMost_some (Nat.le_of_eq hweight)), pass_of_atMost happ (hweight ▸ hbest')]

/-- **A rule replaces an earlier one with the same target**, whatever stands ahead of the two, between them and
behind them. -/
theorem governing_replaced {d e : Rule} (h : d.target = e.target) (f g k : List Rule) (target : String) :
    governing (f ++ d :: (g ++ e :: k)) target = governing (f ++ (g ++ e :: k)) target := by
  rw [governing_eq_foldl, governing_eq_foldl]
  simp only [List.foldl_append, List.foldl_cons]
  generalize f.foldl (pass target) none = best
  cases happ : d.appliesTo target with
  | false => rw [pass_of_not_appliesTo happ]
  | true =>
    have happ' : e.appliesTo target = true := Rule.appliesTo_congr h target ▸ happ
    have hlead : Leads d (g.foldl (pass target) (pass target best d)) (g.foldl (pass target) best) :=
      (leads_pass happ best).foldl target g
    rw [hlead.pass_eq happ' (Rule.weight_congr h)]

/-! ## The laws -/

/-- Rules are added one behind the other. -/
theorem addAll_eq (f ds : List Rule) : (Filter.addAll f ds : List Rule) = f ++ ds := by
  induction ds generalizing f with
  | nil => exact (List.append_nil f).symm
  | cons d ds ih =>
    calc (Filter.addAll (f ++ [d]) ds : List Rule) = f ++ [d] ++ ds := ih (f ++ [d])
      _ = f ++ d :: ds := List.append_assoc f [d] ds

/-- **The dialect of rules for targets does what is relied on.** -/
theorem lawful : Dialect.Lawful where
  read?_named := read?_named
  scope_bare _ _ := rfl
  passes_replaced {d e} f ds es event h := by
    have hgoverning : governing (Filter.addAll f (d :: (ds ++ e :: es))) event.target =
        governing (Filter.addAll f (ds ++ e :: es)) event.target := by
      rw [addAll_eq, addAll_eq]
      exact governing_replaced h f ds es event.target
    exact congrArg (fun r : Option Rule => r.elim false fun d => d.limit.admits event.level) hgoverning
  passes_bare _ _ := rfl

end CoreBench.Log.Targets
