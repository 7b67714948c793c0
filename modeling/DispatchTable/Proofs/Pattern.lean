import DispatchTable.Pattern
import Mathlib.Data.List.Basic

/-!
# Which match a pattern finds

A match fits a pattern when each piece takes what it may take. The search from one place gives a
match that fits, and gives none only if none fits. Of the runs of a class it takes the longest one
after which the rest of the pattern still matches, which determines the match. The matches in a
whole text are found from the left, each after the one before.
-/

namespace DispatchTable

namespace Pattern

section Longest

variable {chars : Char → Bool} {next : Text → Option Match} {s run rest : Text} {m : Match}

/-- No run is found exactly when the rest matches after none. -/
theorem longest_eq_none_iff : longest chars next s = none ↔
    ∀ run rest, s = run ++ rest → (∀ c ∈ run, chars c = true) → next rest = none := by
  induction s with
  | nil =>
    simp only [longest, Option.map_eq_none_iff]
    constructor
    · intro h run rest hs _
      rw [(List.append_eq_nil_iff.mp hs.symm).2, h]
    · exact fun h => h [] [] rfl (by simp)
  | cons c s ih =>
    simp only [longest, Option.or_eq_none_iff, Option.map_eq_none_iff]
    constructor
    · rintro ⟨hlong, hshort⟩ run rest hs hrun
      cases run with
      | nil => rw [← hshort, hs, List.nil_append]
      | cons a run =>
        obtain ⟨rfl, hs'⟩ := List.cons.inj hs
        rw [if_pos (hrun c List.mem_cons_self), Option.map_eq_none_iff, ih] at hlong
        exact hlong run rest hs' fun a ha => hrun a (List.mem_cons_of_mem c ha)
    · intro h
      refine ⟨?_, h [] (c :: s) rfl (by simp)⟩
      split
      · next hc =>
        rw [Option.map_eq_none_iff, ih]
        intro run rest hs hrun
        apply h (c :: run) rest (by rw [hs, List.cons_append])
        intro a ha
        rcases List.mem_cons.mp ha with rfl | ha
        · exact hc
        · exact hrun a ha
      · rfl

/-- A run of the class in front makes a found run longer. -/
theorem longest_append (hrun : ∀ c ∈ run, chars c = true)
    (h : longest chars next rest = some ([] :: m)) :
    longest chars next (run ++ rest) = some (run :: m) := by
  induction run with
  | nil => exact h
  | cons c run ih =>
    rw [List.cons_append, longest, if_pos (hrun c List.mem_cons_self),
      ih fun a ha => hrun a (List.mem_cons_of_mem c ha)]
    rfl

/-- The run that is found is the longest one after which the rest matches. -/
theorem longest_eq_some (hrun : ∀ c ∈ run, chars c = true) (hnext : next rest = some m)
    (hmore : ∀ more rest', rest = more ++ rest' → more ≠ [] → (∀ c ∈ more, chars c = true) →
      next rest' = none) :
    longest chars next (run ++ rest) = some (run :: m) := by
  refine longest_append hrun ?_
  cases rest with
  | nil => simp [longest, hnext]
  | cons c rest =>
    have hlonger : (if chars c = true then (longest chars next rest).map (Match.extend c)
        else none) = none := by
      split
      · next hc =>
        rw [Option.map_eq_none_iff, longest_eq_none_iff]
        intro more rest' hs hall
        refine hmore (c :: more) rest' (by rw [hs, List.cons_append]) (List.cons_ne_nil c more) ?_
        intro a ha
        rcases List.mem_cons.mp ha with rfl | ha
        · exact hc
        · exact hall a ha
      · rfl
    rw [longest, hlonger, hnext]
    rfl

/-- A run that ends where the class does is the one that is found, if the rest matches there. -/
theorem longest_of_stop (hrun : ∀ c ∈ run, chars c = true) (hnext : next rest = some m)
    (hstop : ∀ c ∈ rest.head?, chars c = false) :
    longest chars next (run ++ rest) = some (run :: m) := by
  apply longest_eq_some hrun hnext
  intro more rest' hs hne hall
  obtain ⟨c, more, rfl⟩ := List.exists_cons_of_ne_nil hne
  have hc := hstop c (by rw [hs]; rfl)
  rw [hall c List.mem_cons_self] at hc
  exact absurd hc nofun

/-- What is found is the longest run of the class after which the rest matches, and a match of the
rest there. -/
theorem exists_of_longest_eq_some (h : longest chars next s = some m) :
    ∃ run rest m', s = run ++ rest ∧ (∀ c ∈ run, chars c = true) ∧ next rest = some m' ∧
      m = run :: m' ∧ ∀ more rest', rest = more ++ rest' → more ≠ [] →
        (∀ c ∈ more, chars c = true) → next rest' = none := by
  induction s generalizing m with
  | nil =>
    obtain ⟨m', hm', rfl⟩ := Option.map_eq_some_iff.mp h
    refine ⟨[], [], m', rfl, by simp, hm', rfl, fun more rest' hrest hmore => ?_⟩
    exact absurd (List.append_eq_nil_iff.mp hrest.symm).1 hmore
  | cons c s ih =>
    rw [longest, Option.or_eq_some_iff] at h
    rcases h with hlong | ⟨hnone, hshort⟩
    · split at hlong
      · next hc =>
        obtain ⟨m', hm', rfl⟩ := Option.map_eq_some_iff.mp hlong
        obtain ⟨run, rest, m'', rfl, hrun, hnext, rfl, hmax⟩ := ih hm'
        refine ⟨c :: run, rest, m'', rfl, fun a ha => ?_, hnext, rfl, hmax⟩
        rcases List.mem_cons.mp ha with rfl | ha
        · exact hc
        · exact hrun a ha
      · simp at hlong
    · obtain ⟨m', hm', rfl⟩ := Option.map_eq_some_iff.mp hshort
      refine ⟨[], c :: s, m', rfl, by simp, hm', rfl, fun more rest' hrest hmore hall => ?_⟩
      obtain ⟨a, more, rfl⟩ := List.exists_cons_of_ne_nil hmore
      obtain ⟨rfl, hs⟩ := List.cons.inj hrest
      obtain ⟨hc, hall⟩ := List.forall_mem_cons.mp hall
      rw [if_pos hc, Option.map_eq_none_iff, longest_eq_none_iff] at hnone
      exact hnone more rest' hs hall

end Longest

/-- What each piece of a pattern may take. -/
inductive Fits : Pattern → Match → Prop where
  | nil : Fits [] []
  | exact {text : Text} {pieces : Pattern} {m : Match} (h : Fits pieces m) :
    Fits (.exact text :: pieces) (text :: m)
  | star {chars : Char → Bool} {run : Text} {pieces : Pattern} {m : Match}
    (hrun : ∀ c ∈ run, chars c = true) (h : Fits pieces m) : Fits (.star chars :: pieces) (run :: m)
  | plus {chars : Char → Bool} {run : Text} {pieces : Pattern} {m : Match} (hne : run ≠ [])
    (hrun : ∀ c ∈ run, chars c = true) (h : Fits pieces m) : Fits (.plus chars :: pieces) (run :: m)

/-- A piece for one or more characters takes the longest run of them after which the rest of the
pattern matches. -/
theorem exists_of_backtrack?_plus {chars : Char → Bool} {pieces : Pattern} {s : Text} {m : Match}
    (h : backtrack? (.plus chars :: pieces) s = some m) :
    ∃ run rest m', s = run ++ rest ∧ run ≠ [] ∧ (∀ c ∈ run, chars c = true) ∧
      backtrack? pieces rest = some m' ∧ m = run :: m' ∧ ∀ more rest', rest = more ++ rest' →
        more ≠ [] → (∀ c ∈ more, chars c = true) → backtrack? pieces rest' = none := by
  cases s with
  | nil => simp [backtrack?] at h
  | cons c s =>
    rw [backtrack?] at h
    split at h
    · next hc =>
      obtain ⟨_, hlong, rfl⟩ := Option.map_eq_some_iff.mp h
      obtain ⟨run, rest, m, rfl, hrun, hm, rfl, hmax⟩ := exists_of_longest_eq_some hlong
      refine ⟨c :: run, rest, m, rfl, List.cons_ne_nil c run, fun a ha => ?_, hm, rfl, hmax⟩
      rcases List.mem_cons.mp ha with rfl | ha
      · exact hc
      · exact hrun a ha
    · simp at h

/-- The match that is found fits and stands at the front of the text. -/
theorem fits_of_backtrack? {pattern : Pattern} {s : Text} {m : Match}
    (h : pattern.backtrack? s = some m) : Fits pattern m ∧ ∃ rest, s = m.flatten ++ rest := by
  induction pattern generalizing s m with
  | nil =>
    obtain rfl := Option.some.inj h
    exact ⟨.nil, s, rfl⟩
  | cons piece pieces ih =>
    cases piece with
    | exact text =>
      obtain ⟨rest, hrest, h⟩ := Option.bind_eq_some_iff.mp h
      obtain ⟨m, hm, rfl⟩ := Option.map_eq_some_iff.mp h
      obtain ⟨hfits, rest', rfl⟩ := ih hm
      refine ⟨.exact hfits, rest', ?_⟩
      rw [Text.after?_eq_some_iff.mp hrest, List.flatten_cons, List.append_assoc]
    | star chars =>
      obtain ⟨run, rest, m, rfl, hrun, hm, rfl, _⟩ := exists_of_longest_eq_some h
      obtain ⟨hfits, rest', rfl⟩ := ih hm
      exact ⟨.star hrun hfits, rest', by rw [List.flatten_cons, List.append_assoc]⟩
    | plus chars =>
      obtain ⟨run, rest, m, rfl, hne, hrun, hm, rfl, _⟩ := exists_of_backtrack?_plus h
      obtain ⟨hfits, rest', rfl⟩ := ih hm
      exact ⟨.plus hne hrun hfits, rest', by rw [List.flatten_cons, List.append_assoc]⟩

/-- Where a match fits at the front of a text, one is found. -/
theorem Fits.exists_backtrack? {pattern : Pattern} {m : Match} (h : Fits pattern m) (rest : Text) :
    ∃ m', pattern.backtrack? (m.flatten ++ rest) = some m' := by
  induction h with
  | nil => exact ⟨[], rfl⟩
  | @exact text pieces m h ih =>
    obtain ⟨m', hm'⟩ := ih
    refine ⟨text :: m', ?_⟩
    rw [List.flatten_cons, List.append_assoc, backtrack?, Text.after?_eq_some_iff.mpr rfl,
      Option.bind_some, hm']
    rfl
  | @star chars run pieces m hrun h ih =>
    obtain ⟨m', hm'⟩ := ih
    rw [← Option.ne_none_iff_exists', List.flatten_cons, List.append_assoc, backtrack?, Ne,
      longest_eq_none_iff]
    intro hnone
    rw [hnone run _ rfl hrun] at hm'
    simp at hm'
  | @plus chars run pieces m hne hrun h ih =>
    obtain ⟨m', hm'⟩ := ih
    obtain ⟨c, run, rfl⟩ := List.exists_cons_of_ne_nil hne
    rw [← Option.ne_none_iff_exists', List.flatten_cons, List.cons_append, List.cons_append,
      backtrack?, if_pos (hrun c List.mem_cons_self), List.append_assoc, Ne,
      Option.map_eq_none_iff, longest_eq_none_iff]
    intro hnone
    rw [hnone run _ rfl fun a ha => hrun a (List.mem_cons_of_mem c ha)] at hm'
    simp at hm'

/-- Where a pattern ends in a run of a class and an exact text, the run goes on to the last place at
which the exact text follows it. -/
theorem exists_of_backtrack?_append_star {front : Pattern} {chars : Char → Bool} {close s : Text}
    {m : Match} (h : backtrack? (front ++ [.star chars, .exact close]) s = some m) :
    ∃ taken run rest, m = taken ++ [run, close] ∧ s = taken.flatten ++ (run ++ (close ++ rest)) ∧
      Fits front taken ∧ (∀ c ∈ run, chars c = true) ∧
      ∀ run' rest', run ++ (close ++ rest) = run' ++ (close ++ rest') →
        (∀ c ∈ run', chars c = true) → run'.length ≤ run.length := by
  induction front generalizing s m with
  | nil =>
    obtain ⟨run, _, _, rfl, hrun, hclose, rfl, hmax⟩ := exists_of_longest_eq_some h
    obtain ⟨rest, hrest, hend⟩ := Option.bind_eq_some_iff.mp hclose
    obtain ⟨_, hnil, rfl⟩ := Option.map_eq_some_iff.mp hend
    obtain rfl := Option.some.inj hnil
    obtain rfl := Text.after?_eq_some_iff.mp hrest
    refine ⟨[], run, rest, rfl, rfl, .nil, hrun, fun run' rest' he hrun' => ?_⟩
    rcases List.append_eq_append_iff.mp he with ⟨more, rfl, hmore⟩ | ⟨_, rfl, _⟩
    · by_contra hlt
      have hne : more ≠ [] := by
        rintro rfl
        simp at hlt
      have hnone := hmax more _ hmore hne fun c hc => hrun' c (List.mem_append_right run hc)
      rw [backtrack?, Text.after?_eq_some_iff.mpr rfl] at hnone
      cases hnone
    · simp
  | cons piece front ih =>
    cases piece with
    | exact text =>
      obtain ⟨_, htext, h⟩ := Option.bind_eq_some_iff.mp h
      obtain ⟨_, hm, rfl⟩ := Option.map_eq_some_iff.mp h
      obtain ⟨taken, run, rest, rfl, rfl, hfits, hrun, hmax⟩ := ih hm
      refine ⟨text :: taken, run, rest, rfl, ?_, .exact hfits, hrun, hmax⟩
      rw [Text.after?_eq_some_iff.mp htext, List.flatten_cons, List.append_assoc]
    | star chars =>
      obtain ⟨lead, _, _, rfl, hlead, hm, rfl, _⟩ := exists_of_longest_eq_some h
      obtain ⟨taken, run, rest, rfl, rfl, hfits, hrun, hmax⟩ := ih hm
      refine ⟨lead :: taken, run, rest, rfl, ?_, .star hlead hfits, hrun, hmax⟩
      rw [List.flatten_cons, List.append_assoc]
    | plus chars =>
      obtain ⟨lead, _, _, rfl, hne, hlead, hm, rfl, _⟩ := exists_of_backtrack?_plus h
      obtain ⟨taken, run, rest, rfl, rfl, hfits, hrun, hmax⟩ := ih hm
      refine ⟨lead :: taken, run, rest, rfl, ?_, .plus hne hlead hfits, hrun, hmax⟩
      rw [List.flatten_cons, List.append_assoc]

section Pieces

variable {chars : Char → Bool} {pieces : Pattern} {run rest : Text} {m : Match}

/-- An exact text is taken as it is. -/
theorem backtrack?_exact (text : Text) (h : backtrack? pieces rest = some m) :
    backtrack? (.exact text :: pieces) (text ++ rest) = some (text :: m) := by
  rw [backtrack?, Text.after?_eq_some_iff.mpr rfl, Option.bind_some, h]
  rfl

/-- A run that ends where the class does is taken whole. -/
theorem backtrack?_star (hrun : ∀ c ∈ run, chars c = true)
    (hstop : ∀ c ∈ rest.head?, chars c = false) (h : backtrack? pieces rest = some m) :
    backtrack? (.star chars :: pieces) (run ++ rest) = some (run :: m) :=
  longest_of_stop hrun h hstop

/-- A run is taken as long as the rest matches after it. -/
theorem backtrack?_star_of_longest (hrun : ∀ c ∈ run, chars c = true)
    (h : backtrack? pieces rest = some m)
    (hmore : ∀ more rest', rest = more ++ rest' → more ≠ [] → (∀ c ∈ more, chars c = true) →
      backtrack? pieces rest' = none) :
    backtrack? (.star chars :: pieces) (run ++ rest) = some (run :: m) :=
  longest_eq_some hrun h hmore

/-- A run of at least one character that ends where the class does is taken whole. -/
theorem backtrack?_plus (hne : run ≠ []) (hrun : ∀ c ∈ run, chars c = true)
    (hstop : ∀ c ∈ rest.head?, chars c = false) (h : backtrack? pieces rest = some m) :
    backtrack? (.plus chars :: pieces) (run ++ rest) = some (run :: m) := by
  obtain ⟨c, run, rfl⟩ := List.exists_cons_of_ne_nil hne
  rw [List.cons_append, backtrack?, if_pos (hrun c List.mem_cons_self),
    longest_of_stop (fun a ha => hrun a (List.mem_cons_of_mem c ha)) h hstop]
  rfl

/-- A run of at least one character is taken as long as the rest matches after it. -/
theorem backtrack?_plus_of_longest (hne : run ≠ []) (hrun : ∀ c ∈ run, chars c = true)
    (h : backtrack? pieces rest = some m)
    (hmore : ∀ more rest', rest = more ++ rest' → more ≠ [] → (∀ c ∈ more, chars c = true) →
      backtrack? pieces rest' = none) :
    backtrack? (.plus chars :: pieces) (run ++ rest) = some (run :: m) := by
  obtain ⟨c, run, rfl⟩ := List.exists_cons_of_ne_nil hne
  rw [List.cons_append, backtrack?, if_pos (hrun c List.mem_cons_self),
    longest_eq_some (fun a ha => hrun a (List.mem_cons_of_mem c ha)) h hmore]
  rfl

end Pieces

/-- The matches in a text are picked from those at its places. -/
theorem findAll_eq (pattern : Pattern) (s : Text) :
    pattern.findAll s = pick 0 ((suffixes s).map pattern.backtrack?) := by
  rw [findAll, places_eq]

/-- A place without a match is passed. -/
theorem findAll_cons_of_none {pattern : Pattern} {c : Char} {s : Text}
    (h : pattern.backtrack? (c :: s) = none) : pattern.findAll (c :: s) = pattern.findAll s := by
  rw [findAll_eq, findAll_eq, suffixes, List.map_cons, h, pick]

private theorem pick_length_suffixes (f : Text → Option Match) (skipped rest : Text) :
    pick skipped.length ((suffixes (skipped ++ rest)).map f) = pick 0 ((suffixes rest).map f) := by
  induction skipped with
  | nil => rfl
  | cons c skipped ih => rw [List.cons_append, suffixes, List.map_cons, List.length_cons, pick, ih]

/-- A match at the front that takes something is picked, and the search goes on behind it. -/
theorem findAll_append {pattern : Pattern} {m : Match} {rest : Text} (hne : m.flatten ≠ [])
    (h : pattern.backtrack? (m.flatten ++ rest) = some m) :
    pattern.findAll (m.flatten ++ rest) = m :: pattern.findAll rest := by
  obtain ⟨c, t, hm⟩ := List.exists_cons_of_ne_nil hne
  have hsize : m.size = t.length + 1 := by rw [Match.size, hm, List.length_cons]
  rw [findAll_eq, findAll_eq, ← pick_length_suffixes _ t rest]
  rw [hm, List.cons_append] at h ⊢
  rw [suffixes, List.map_cons, h, pick, if_neg (by omega), hsize, Nat.add_sub_cancel]

/-- What follows the places of a text are its ends. -/
theorem mem_suffixes {s t : Text} : t ∈ suffixes s ↔ t <:+ s := by
  induction s with
  | nil => simp [suffixes]
  | cons c s ih => rw [suffixes, List.mem_cons, ih, List.suffix_cons_iff]

private theorem mem_of_mem_pick {skip : Nat} {found : List (Option Match)} {m : Match}
    (h : m ∈ pick skip found) : some m ∈ found := by
  induction found generalizing skip with
  | nil => simp [pick] at h
  | cons m? found ih =>
    cases skip with
    | succ skip => exact List.mem_cons_of_mem m? (ih h)
    | zero =>
      cases m? with
      | none => exact List.mem_cons_of_mem none (ih h)
      | some m' =>
        rw [pick] at h
        split at h
        · exact List.mem_cons_of_mem _ (ih h)
        · rcases List.mem_cons.mp h with rfl | h
          · exact List.mem_cons_self
          · exact List.mem_cons_of_mem _ (ih h)

/-- Every match in a text fits and is a part of the text. -/
theorem fits_of_mem_findAll {pattern : Pattern} {s : Text} {m : Match}
    (h : m ∈ pattern.findAll s) : Fits pattern m ∧ m.flatten <:+: s := by
  rw [findAll_eq] at h
  obtain ⟨t, ht, hm⟩ := List.mem_map.mp (mem_of_mem_pick h)
  obtain ⟨hfits, rest, rfl⟩ := fits_of_backtrack? hm
  exact ⟨hfits, (List.prefix_append _ rest).isInfix.trans (mem_suffixes.mp ht).isInfix⟩

end Pattern

end DispatchTable
