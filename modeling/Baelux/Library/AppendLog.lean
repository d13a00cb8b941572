import Mathlib.Data.List.Perm.Subperm

/-! Append-only logs of encoded bindings, in which the last binding of a key
wins and an entry that does not decode binds nothing. -/

namespace Baelux.AppendLog

variable {ω κ α : Type} [DecidableEq κ] (decode : ω → Option (κ × α))

def binding (entry : ω) (key : κ) : Option α :=
  match decode entry with
  | some (k, value) => if k = key then some value else none
  | none => none

def latest : List ω → κ → Option α
  | [], _ => none
  | entry :: rest, key => (latest rest key).or (binding decode entry key)

variable {decode}

@[simp] theorem latest_nil (key : κ) : latest decode [] key = none := rfl

@[simp] theorem latest_append (front back : List ω) (key : κ) :
    latest decode (front ++ back) key =
      (latest decode back key).or (latest decode front key) := by
  induction front with
  | nil => simp
  | cons entry rest ih => simp [latest, ih, Option.or_assoc]

theorem binding_decoded {entry : ω} {k : κ} {value : α} (decoded : decode entry = some (k, value))
    (key : κ) : binding decode entry key = if k = key then some value else none := by
  simp [binding, decoded]

theorem binding_undecoded {entry : ω} (undecoded : decode entry = none) (key : κ) :
    binding decode entry key = none := by
  simp [binding, undecoded]

theorem latest_concat (log : List ω) {entry : ω} {k : κ} {value : α}
    (decoded : decode entry = some (k, value)) (key : κ) :
    latest decode (log ++ [entry]) key = if k = key then some value else latest decode log key := by
  rw [latest_append]
  simp only [latest, Option.none_or, binding_decoded decoded]
  split <;> simp

theorem length_le_of_bound (log : List ω) (keys : List κ) (nodup : keys.Nodup)
    (bound : ∀ key ∈ keys, (latest decode log key).isSome) : keys.length ≤ log.length := by
  have found : ∀ (entries : List ω) key, (latest decode entries key).isSome →
      key ∈ entries.filterMap (fun entry => (decode entry).map Prod.fst) := by
    intro entries key present
    induction entries with
    | nil => simp at present
    | cons entry rest ih =>
        simp only [latest, Option.isSome_or, Bool.or_eq_true] at present
        rcases present with later | here
        · exact List.mem_filterMap.mpr (by
            rcases List.mem_filterMap.mp (ih later) with ⟨e, member, decoded⟩
            exact ⟨e, List.mem_cons_of_mem _ member, decoded⟩)
        · unfold binding at here
          split at here
          · rename_i k value decoded
            split at here
            · rename_i same
              exact List.mem_filterMap.mpr ⟨entry, List.mem_cons_self .., by simp [decoded, same]⟩
            · simp at here
          · simp at here
  have inside : keys ⊆ log.filterMap (fun entry => (decode entry).map Prod.fst) :=
    fun key member => found log key (bound key member)
  exact Nat.le_trans (nodup.subperm inside).length_le (List.length_filterMap_le _ _)

theorem latest_undecoded (log : List ω) (blank : ∀ entry ∈ log, decode entry = none) (key : κ) :
    latest decode log key = none := by
  induction log with
  | nil => rfl
  | cons entry rest ih =>
      have now := binding_undecoded (blank entry (List.mem_cons_self ..)) key
      have later := ih (fun other member => blank other (List.mem_cons_of_mem _ member))
      rw [latest, now, later, Option.or_none]

theorem latest_append_undecoded (log tail : List ω) (blank : ∀ entry ∈ tail, decode entry = none)
    (key : κ) : latest decode (log ++ tail) key = latest decode log key := by
  rw [latest_append, latest_undecoded tail blank, Option.none_or]

theorem latest_congr {decode' : ω → Option (κ × α)} (log : List ω)
    (alike : ∀ entry ∈ log, decode' entry = decode entry) (key : κ) :
    latest decode' log key = latest decode log key := by
  induction log with
  | nil => rfl
  | cons entry rest ih =>
      have later := ih (fun other member => alike other (List.mem_cons_of_mem _ member))
      rw [latest, latest, later, binding, binding, alike entry (List.mem_cons_self ..)]

/-- Replaying a log upwards over a table leaves the last binding of each key. -/
theorem foldl_latest {ι : Type} {step : (ι → α) → ω → ι → α} {i : ι} {key : κ}
    (writes : ∀ table entry, step table entry i = (binding decode entry key).getD (table i))
    (log : List ω) (table : ι → α) :
    log.foldl step table i = (latest decode log key).getD (table i) := by
  induction log generalizing table with
  | nil => rfl
  | cons entry rest ih =>
      rw [List.foldl_cons, ih, writes, latest]
      cases latest decode rest key with
      | none => rfl
      | some value => rfl

variable (decode) in
def Distinct (keys : List κ) (log : List ω) : Prop :=
  ∃ bindings : List (κ × α), log.map decode = bindings.map some ∧
    (bindings.map Prod.fst).Nodup ∧ ∀ b ∈ bindings, b.1 ∈ keys

omit [DecidableEq κ] in
theorem Distinct.nil (keys : List κ) : Distinct decode keys [] := ⟨[], by simp⟩

omit [DecidableEq κ] in
theorem Distinct.length_le {keys : List κ} {log : List ω} (distinct : Distinct decode keys log) :
    log.length ≤ keys.length := by
  rcases distinct with ⟨bindings, decoded, nodup, inside⟩
  have lengths : log.length = (bindings.map Prod.fst).length := by
    simpa using congrArg List.length decoded
  have covered : bindings.map Prod.fst ⊆ keys := by
    intro key member
    rcases List.mem_map.mp member with ⟨b, present, rfl⟩
    exact inside b present
  rw [lengths]
  exact (nodup.subperm covered).length_le

private theorem latest_bound {log : List ω} {bindings : List (κ × α)}
    (decoded : log.map decode = bindings.map some) {key : κ}
    (member : key ∈ bindings.map Prod.fst) : (latest decode log key).isSome := by
  induction log generalizing bindings with
  | nil =>
      have none_bound : bindings = [] := by simpa using decoded.symm
      simp [none_bound] at member
  | cons entry rest ih =>
      cases bindings with
      | nil => simp at decoded
      | cons b others =>
          rcases b with ⟨k, value⟩
          simp only [List.map_cons, List.cons.injEq] at decoded
          simp only [List.map_cons, List.mem_cons] at member
          simp only [latest, binding_decoded decoded.1, Option.isSome_or, Bool.or_eq_true]
          rcases member with rfl | later
          · exact Or.inr (by simp)
          · exact Or.inl (ih decoded.2 later)

theorem Distinct.concat {keys : List κ} {log : List ω} (distinct : Distinct decode keys log)
    {entry : ω} {key : κ} {value : α} (decoded : decode entry = some (key, value))
    (inside : key ∈ keys) (unbound : latest decode log key = none) :
    Distinct decode keys (log ++ [entry]) := by
  rcases distinct with ⟨bindings, previous, nodup, covered⟩
  refine ⟨bindings ++ [(key, value)], by simp [previous, decoded], ?_, ?_⟩
  · rw [List.map_append, List.nodup_append]
    refine ⟨nodup, by simp, ?_⟩
    intro first member second last same
    simp only [List.map_cons, List.map_nil, List.mem_singleton] at last
    subst last same
    have bound := latest_bound previous member
    simp [unbound] at bound
  · intro b member
    rcases List.mem_append.mp member with old | new
    · exact covered b old
    · simp only [List.mem_singleton] at new
      exact new ▸ inside

theorem Distinct.length_lt {keys : List κ} {log : List ω} (distinct : Distinct decode keys log)
    {entry : ω} {key : κ} {value : α} (decoded : decode entry = some (key, value))
    (inside : key ∈ keys) (unbound : latest decode log key = none) :
    log.length < keys.length := by
  have longer := (distinct.concat decoded inside unbound).length_le
  rwa [List.length_append, List.length_singleton] at longer

theorem lt_countP_range {p : Nat → Bool} (n : Nat)
    (closed : ∀ i j, i ≤ j → j < n → p j = true → p i = true) :
    ∀ i < n, p i = true ↔ i < (List.range n).countP p := by
  induction n with
  | zero => exact fun i inside => absurd inside (Nat.not_lt_zero i)
  | succ n ih =>
    have below := ih fun i j order inside => closed i j order (Nat.lt_succ_of_lt inside)
    have most : (List.range n).countP p ≤ (List.range n).length := List.countP_le_length
    rw [List.length_range] at most
    intro i inside
    rw [List.range_succ, List.countP_append, List.countP_singleton]
    by_cases last : p n = true
    · have all : (List.range n).countP p = n := by
        rw [← List.length_range (n := n), List.countP_eq_length.mpr]
        · rw [List.length_range]
        · intro j member
          rw [List.length_range] at member
          exact closed j n (Nat.le_of_lt (List.mem_range.mp member)) (Nat.lt_succ_self n) last
      rw [if_pos last, all]
      exact iff_of_true (closed i n (by omega) (Nat.lt_succ_self n) last) inside
    · rw [if_neg last, Nat.add_zero]
      by_cases here : i = n
      · subst here
        exact iff_of_false last (by omega)
      · exact below i (by omega)

/-! ## Copying the missing keys, one after another -/

section Missing

variable (held source : Nat → Option α)

def missing (key : Nat) : Bool := (held key).isNone && (source key).isSome

def missingBelow (bound : Nat) : Nat := (List.range bound).countP (missing held source)

def copied (count : Nat) : Nat → Option α := fun key =>
  if missing held source key = true ∧ missingBelow held source key < count then source key
  else held key

theorem missingBelow_succ (bound : Nat) : missingBelow held source (bound + 1) =
    missingBelow held source bound + if missing held source bound = true then 1 else 0 := by
  rw [missingBelow, List.range_succ, List.countP_append, List.countP_singleton]
  rfl

theorem missingBelow_mono {first last : Nat} (order : first ≤ last) :
    missingBelow held source first ≤ missingBelow held source last :=
  (List.range_sublist.mpr order).countP_le

variable {held source}

theorem missingBelow_lt {bound key : Nat} (inside : key < bound) (has : (held key).isSome) :
    missingBelow held source bound < bound := by
  rcases Option.isSome_iff_exists.mp has with ⟨value, has⟩
  have most : missingBelow held source bound ≤ (List.range bound).length := List.countP_le_length
  rw [List.length_range] at most
  apply Nat.lt_of_le_of_ne most
  intro all
  have lacks := List.countP_eq_length.mp (all.trans List.length_range.symm) key
    (List.mem_range.mpr inside)
  rw [missing, has] at lacks
  cases lacks

theorem copied_zero : copied held source 0 = held := by
  funext key
  rw [copied, if_neg]
  exact fun both => absurd both.2 (Nat.not_lt_zero _)

theorem copied_self (key : Nat) :
    copied held source (missingBelow held source key) key = held key := by
  rw [copied, if_neg]
  exact fun both => absurd both.2 (Nat.lt_irrefl _)

theorem copied_all {bound key : Nat} (inside : key < bound) :
    copied held source (missingBelow held source bound) key = (held key).or (source key) := by
  have later := missingBelow_mono held source (show key + 1 ≤ bound from inside)
  have here := missingBelow_succ held source key
  unfold copied
  cases has : held key with
  | some value =>
    rw [if_neg (by simp [missing, has])]
    rfl
  | none =>
    cases gives : source key with
    | none => simp
    | some value =>
      have lacks : missing held source key = true := by simp [missing, has, gives]
      rw [if_pos lacks] at here
      rw [if_pos ⟨lacks, by omega⟩]
      rfl

theorem copied_next {key : Nat} (lacks : missing held source key = true) :
    copied held source (missingBelow held source key + 1) =
      Function.update (copied held source (missingBelow held source key)) key (source key) := by
  funext other
  by_cases here : other = key
  · subst here
    rw [Function.update_self, copied, if_pos ⟨lacks, Nat.lt_succ_self _⟩]
  · rw [Function.update_of_ne here, copied, copied]
    apply if_congr _ rfl rfl
    apply and_congr_right
    intro other_lacks
    have below := missingBelow_succ held source other
    have above := missingBelow_succ held source key
    rw [if_pos other_lacks] at below
    rw [if_pos lacks] at above
    rcases Nat.lt_or_gt_of_ne here with before | after
    · have order := missingBelow_mono held source (show other + 1 ≤ key from before)
      omega
    · have order := missingBelow_mono held source (show key + 1 ≤ other from after)
      omega

end Missing

end Baelux.AppendLog
