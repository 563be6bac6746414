import Mathlib.Algebra.Order.BigOperators.Group.List
import Mathlib.Data.List.Nodup
import Mathlib.Data.List.TakeWhile
import RustdeskServer.RttRoutes

/-!
# What the measurements and the sites give

The times that are written come from measurements and from a file of sites.  At a site every
node that answered has one time, which is not negative; a node is one relay in all rows; and
what the file of the sites gives are words, without the characters that a table is cut at.

## Main definitions

* `Rtt.written` — the sites that get lines.

## Main results

* `Rtt.siteValues_spec` — **the times of a site.**
* `Rtt.relayNames_spec` — the relays of the nodes.
* `Rtt.readSites_spec` — what the file of the sites says.
* `Rtt.siteLines_eq` — the loop over the sites.
* `Rtt.averages_spec` — the times on average.
-/

namespace RustdeskServer

open Plain (Binary64)

namespace Rtt

/-! ### Times -/

section Times

variable {py : Python} {a : Args} {rows : List Row} {site : String}

/-- The numbers of a row are not negative. -/
def Row.Nonneg (r : Row) : Prop := (∀ q ∈ r.medianMs, 0 ≤ q) ∧ ∀ q ∈ r.lossPct, 0 ≤ q

theorem nodup_eraseDups {α : Type*} [BEq α] [LawfulBEq α] (l : List α) : l.eraseDups.Nodup := by
  induction hn : l.length using Nat.strong_induction_on generalizing l with
  | _ n ih =>
    cases l with
    | nil => simp
    | cons x l =>
      rw [List.eraseDups_cons, List.nodup_cons]
      have hlen : (l.filter fun y => !y == x).length < n := by
        rw [← hn]
        exact Nat.lt_succ_of_le (List.length_filter_le _ _)
      refine ⟨fun hx => ?_, ih _ hlen _ rfl⟩
      have := (List.mem_filter.mp (List.mem_eraseDups.mp hx)).2
      simp at this

theorem num_nonneg {l : List ℚ} (h : ∀ q ∈ l, 0 ≤ q) : ∀ v ∈ l.map num, v.Nonneg :=
  List.forall_mem_map.mpr fun q hq => Binary64.ofRat_nonneg (h q hq)

theorem median_nonneg {l : List Binary64} (h : ∀ v ∈ l, v.Nonneg) : (median l).Nonneg := by
  have hget : ∀ i, ((l.insertionSort fun x y => ¬y < x).getD i .nan).Nonneg := by
    intro i
    rw [List.getD_eq_getElem?_getD]
    cases hi : (l.insertionSort fun x y => ¬y < x)[i]? with
    | none => trivial
    | some v => exact h v ((List.mem_insertionSort _).mp (List.mem_of_getElem? hi))
  simp only [median]
  split
  · exact hget _
  · exact Binary64.divNat_nonneg (Binary64.add_nonneg (hget _) (hget _)) 2

theorem foldl_add_nonneg {l : List Binary64} (h : ∀ v ∈ l, v.Nonneg) {v : Binary64}
    (hv : v.Nonneg) : (l.foldl (· + ·) v).Nonneg := by
  induction l generalizing v with
  | nil => exact hv
  | cons x l ih =>
    obtain ⟨hx, hl⟩ := List.forall_mem_cons.mp h
    exact ih hl (Binary64.add_nonneg hv hx)

theorem mean_nonneg {l : List Binary64} (h : ∀ v ∈ l, v.Nonneg) : (mean l).Nonneg := by
  simp only [mean]
  split
  · refine Binary64.ofRat_nonneg (div_nonneg (List.sum_nonneg fun q hq => ?_) (Nat.cast_nonneg _))
    obtain ⟨v, hv, hq⟩ := List.mem_filterMap.mp hq
    exact (h v hv).toRat? hq
  · refine Binary64.divNat_nonneg (foldl_add_nonneg (fun v hv => ?_)
      (Binary64.ofRat_nonneg le_rfl)) _
    exact h v (List.mem_filter.mp hv).1

/-- A time in `values` is of a node of the rows, and not negative. -/
theorem mem_values (hrows : ∀ r ∈ rows, r.Nonneg) (ha : 0 ≤ a.lossPenalty)
    {x : String × Binary64 × ℕ} (hx : x ∈ values a rows) :
    (∃ r ∈ rows, r.node = x.1) ∧ x.2.1.Nonneg := by
  obtain ⟨⟨k, g⟩, hg, hx⟩ := List.mem_filterMap.mp hx
  obtain ⟨k', hk, hkg⟩ := List.mem_map.mp hg
  cases hkg
  obtain ⟨r, hr, rfl⟩ := List.mem_map.mp (List.mem_eraseDups.mp hk)
  have hsub : ∀ r' ∈ rows.filter (fun r' => r'.cell = r.cell), r'.Nonneg :=
    fun r' hr' => hrows r' (List.mem_filter.mp hr').1
  have hloss : (stats (rows.filter fun r' => r'.cell = r.cell)).loss.Nonneg := by
    simp only [stats]
    split
    · exact Binary64.ofRat_nonneg (by norm_num)
    · refine mean_nonneg (num_nonneg fun q hq => ?_)
      obtain ⟨r', hr', hq⟩ := List.mem_filterMap.mp hq
      exact (hsub r' hr').2 q hq
  dsimp only at hx
  split at hx
  · obtain ⟨m, hm, rfl⟩ := Option.map_eq_some_iff.mp hx
    have hmedian : m.Nonneg := by
      simp only [stats] at hm
      split at hm
      · cases hm
      · cases hm
        refine median_nonneg (num_nonneg fun q hq => ?_)
        obtain ⟨r', hr', hq⟩ := List.mem_filterMap.mp hq
        exact (hsub r' hr').1 q hq
    exact ⟨⟨r, hr, rfl⟩, Binary64.add_nonneg hmedian
      (Binary64.mul_nonneg (Binary64.ofRat_nonneg ha) hloss)⟩
  · cases hx

/-- At one site every node has one time. -/
theorem nodup_values (hsite : ∀ r ∈ rows, r.site = site) :
    ((values a rows).map Prod.fst).Nodup := by
  rw [List.Nodup, List.pairwise_map, values, List.pairwise_filterMap, aggregate, List.pairwise_map]
  refine (nodup_eraseDups (rows.map Row.cell)).imp_of_mem ?_
  intro k k' hk hk' hne x hx x' hx' heq
  have hcell : ∀ k ∈ (rows.map Row.cell).eraseDups, k.1 = site := by
    intro k hk
    obtain ⟨r, hr, rfl⟩ := List.mem_map.mp (List.mem_eraseDups.mp hk)
    exact hsite r hr
  have hnode : ∀ {k : String × String} {g : Stats} {x : String × Binary64 × ℕ},
      (if g.usable then
        g.median.map fun m => (k.2, m + num a.lossPenalty * g.loss, g.runs) else none) =
        some x → x.1 = k.2 := by
    intro k g x hx
    split at hx
    · obtain ⟨m, -, rfl⟩ := Option.map_eq_some_iff.mp hx
      rfl
    · cases hx
  refine hne (Prod.ext ?_ ?_)
  · rw [hcell k hk, hcell k' hk']
  · rw [← hnode hx, ← hnode hx', heq]

theorem mem_of_lookup {α : Type} {l : List (String × α)} {n : String} {x : α}
    (h : l.lookup n = some x) : (n, x) ∈ l := by
  obtain ⟨l₁, l₂, rfl, -⟩ := List.lookup_eq_some_iff.mp h
  simp

theorem enough_nonneg {l : List (String × Binary64 × ℕ)} (h : ∀ x ∈ l, x.2.1.Nonneg) {n : String}
    {v : Binary64} (hq : enough a (l.lookup n) = some v) : v.Nonneg := by
  obtain ⟨p, hp, rfl⟩ := Option.map_eq_some_iff.mp hq
  exact h (n, p) (mem_of_lookup (Option.filter_eq_some_iff.mp hp).1)

theorem basisValue_nonneg {p o : Option Binary64} (hp : ∀ v ∈ p, v.Nonneg)
    (ho : ∀ v ∈ o, v.Nonneg) {v : Binary64} (hv : v.Nonneg) :
    ((basisValue a p o).getD v).Nonneg := by
  unfold basisValue
  split
  · exact hp _ rfl
  · rw [Option.getD_some]
    split
    · exact ho _ rfl
    · exact hp _ rfl
  · exact hv

/-- **The times of a site**: one for each node, of a node that was measured, and not
negative. -/
theorem siteValues_spec (hrows : ∀ r ∈ rows, r.Nonneg) (ha : 0 ≤ a.lossPenalty)
    {vals : List (String × Binary64)} (h : siteValues py a rows site = .ok vals) :
    (vals.map Prod.fst).Nodup ∧ ∀ x ∈ vals, (∃ r ∈ rows, r.node = x.1) ∧ x.2.Nonneg := by
  have hmine : ∀ r ∈ rows.filter (fun r => r.site = site), r.Nonneg :=
    fun r hr => hrows r (List.mem_filter.mp hr).1
  have hnodup := @nodup_values a (rows.filter fun r => r.site = site) site fun r hr => by
    simpa using (List.mem_filter.mp hr).2
  have hmem : ∀ x ∈ values a (rows.filter fun r => r.site = site),
      (∃ r ∈ rows, r.node = x.1) ∧ x.2.1.Nonneg := by
    intro x hx
    obtain ⟨⟨r, hr, hnode⟩, hpos⟩ := mem_values hmine ha hx
    exact ⟨⟨r, (List.mem_filter.mp hr).1, hnode⟩, hpos⟩
  simp only [siteValues] at h
  split at h
  · cases h
    rw [List.map_map]
    refine ⟨hnodup, fun x hx => ?_⟩
    obtain ⟨y, hy, rfl⟩ := List.mem_map.mp hx
    exact hmem y hy
  · split at h
    · cases h
    · next hours _ =>
      cases h
      simp only [periodValues, List.map_map]
      refine ⟨hnodup, fun x hx => ?_⟩
      obtain ⟨y, hy, rfl⟩ := List.mem_map.mp hx
      refine ⟨(hmem y hy).1, ?_⟩
      have hperiod : ∀ p : Row → Bool, ∀ x ∈ values a
          ((rows.filter fun r => r.site = site).filter p), x.2.1.Nonneg :=
        fun p x hx => (mem_values (fun r hr => hmine r (List.mem_filter.mp hr).1) ha hx).2
      exact basisValue_nonneg (fun v hv => enough_nonneg (hperiod _) hv)
        (fun v hv => enough_nonneg (hperiod _) hv) (hmem y hy).2

end Times
/-! ### Names and sites -/

section Inputs

variable {py : Python} {a : Args} {rows : List Row}

/-- A row is given the relay it was measured as. -/
theorem relayNames_spec {names names' : HashMap String String}
    (h : relayNames py rows names = .ok names') :
    (∀ n x, names.lookup n = some x → names'.lookup n = some x) ∧
      ∀ r ∈ rows, names'.lookup r.node = some (r.relay py) := by
  induction rows generalizing names with
  | nil =>
    cases h
    exact ⟨fun _ _ hx => hx, List.forall_mem_nil _⟩
  | cons r rows ih =>
    rw [relayNames] at h
    split at h
    · next hnone =>
      obtain ⟨hkeeps, hrows⟩ := ih h
      refine ⟨fun n x hx => hkeeps n x ?_, List.forall_mem_cons.mpr ⟨?_, hrows⟩⟩
      · rw [AList.lookup_insert_ne, hx]
        rintro rfl
        rw [hx] at hnone
        cases hnone
      · exact hkeeps _ _ (AList.lookup_insert names)
    · next prev hprev =>
      split at h
      · cases h
      · next hsame =>
        obtain ⟨hkeeps, hrows⟩ := ih h
        rw [not_not] at hsame
        refine ⟨hkeeps, List.forall_mem_cons.mpr ⟨hkeeps _ _ ?_, hrows⟩⟩
        rw [hprev, hsame]

/-- A word of the file of the sites. -/
def SiteWord (w : List Char) : Prop := ∀ c ∈ w, isspace c = false ∧ c ≠ ',' ∧ c ≠ '#'

theorem siteWord_of_mem {raw w : List Char} (h : w ∈ Plain.words isspace
    ((raw.takeWhile (· ≠ '#')).map fun c => if c = ',' then ' ' else c)) : SiteWord w := by
  intro c hc
  obtain ⟨hspace, hmem⟩ := (Plain.mem_words h).2 c hc
  obtain ⟨d, hd, rfl⟩ := List.mem_map.mp hmem
  have hmark : d ≠ '#' := by simpa using List.mem_takeWhile_imp hd
  split at hspace
  · cases hspace
  · next hcomma =>
    rw [if_neg hcomma]
    exact ⟨hspace, hcomma, hmark⟩

theorem readNetworks_spec {place : String} {texts : List (List Char)} {nets : List PyNetwork}
    (h : readNetworks py place texts = .ok nets) :
    nets.length = texts.length ∧
      ∀ net ∈ nets, ∃ text ∈ texts, py.ipNetwork (String.ofList text) = some net := by
  induction texts generalizing nets with
  | nil =>
    cases h
    exact ⟨rfl, List.forall_mem_nil _⟩
  | cons text texts ih =>
    rw [readNetworks] at h
    split at h
    · cases h
    · next net hnet =>
      split at h
      · cases h
      · next nets' hnets =>
        cases h
        obtain ⟨hlen, hall⟩ := ih hnets
        refine ⟨by simp [hlen], List.forall_mem_cons.mpr ⟨⟨text, by simp, hnet⟩, ?_⟩⟩
        intro net' hnet'
        obtain ⟨text', htext', hread⟩ := hall net' hnet'
        exact ⟨text', List.mem_cons_of_mem _ htext', hread⟩

/-- A site of the file: its label is a word, it has a network, and its networks were read from
words. -/
structure SiteOk (py : Python) (s : String × List PyNetwork) : Prop where
  label : SiteWord s.1.toList
  nets_ne : s.2 ≠ []
  nets : ∀ net ∈ s.2, ∃ text : String, SiteWord text.toList ∧ py.ipNetwork text = some net

theorem readSiteLines_spec {path : String} {ln : ℕ} {raws : List (List Char)}
    {sites sites' : List (String × List PyNetwork)}
    (h : readSiteLines py path ln raws sites = .ok sites') (hsites : ∀ s ∈ sites, SiteOk py s) :
    ∀ s ∈ sites', SiteOk py s := by
  induction raws generalizing ln sites with
  | nil =>
    cases h
    exact hsites
  | cons raw raws ih =>
    simp only [readSiteLines] at h
    split at h
    · exact ih h hsites
    · split at h
      · next label text texts hwords =>
        have hword : ∀ w ∈ label :: text :: texts, SiteWord w :=
          fun w hw => siteWord_of_mem (by rwa [hwords])
        split at h
        · cases h
        · split at h
          · cases h
          · next nets hnets =>
            obtain ⟨hlen, hall⟩ := readNetworks_spec hnets
            refine ih h (List.forall_mem_append.mpr ⟨hsites, List.forall_mem_singleton.mpr ?_⟩)
            refine ⟨?_, ?_, fun net hnet => ?_⟩
            · rw [String.toList_ofList]
              exact hword label List.mem_cons_self
            · rintro rfl
              simp at hlen
            · obtain ⟨t, ht, hread⟩ := hall net hnet
              refine ⟨String.ofList t, ?_, hread⟩
              rw [String.toList_ofList]
              exact hword t (List.mem_cons_of_mem _ ht)
      · cases h

/-- **What the file of the sites says.** -/
theorem readSites_spec {path : String} {text : List Char} {sites : List (String × List PyNetwork)}
    (h : readSites py path text = .ok sites) : ∀ s ∈ sites, SiteOk py s := by
  rw [readSites] at h
  split at h
  · cases h
  · cases h
  · next hread =>
    cases h
    exact readSiteLines_spec hread (List.forall_mem_nil _)

variable (py a) in
/-- The sites that get lines: those with a node that answered. -/
def written (rows : List Row) (sites : List (String × List PyNetwork)) : List Line :=
  sites.filterMap fun s =>
    match siteValues py a rows s.1 with
    | .error _ => none
    | .ok vals => if vals = [] then none else some ⟨s.1, s.2, vals⟩

theorem mem_written {sites : List (String × List PyNetwork)} {l : Line}
    (h : l ∈ written py a rows sites) :
    (l.label, l.nets) ∈ sites ∧ siteValues py a rows l.label = .ok l.vals ∧ l.vals ≠ [] := by
  obtain ⟨s, hs, hl⟩ := List.mem_filterMap.mp h
  split at hl
  · cases hl
  · next vals hvals =>
    split at hl
    · cases hl
    · next hne =>
      cases hl
      exact ⟨hs, hvals, hne⟩

/-- A site without rows has no times. -/
theorem siteValues_unmeasured {label : String} (h : label ∉ rows.map Row.site)
    {vals : List (String × Binary64)} (hvals : siteValues py a rows label = .ok vals) :
    vals = [] := by
  have hmine : rows.filter (fun r => r.site = label) = [] := by
    refine List.filter_eq_nil_iff.mpr fun r hr hsite => h (List.mem_map.mpr ⟨r, hr, ?_⟩)
    simpa using hsite
  simp only [siteValues, hmine] at hvals
  split at hvals
  · cases hvals
    rfl
  · split at hvals
    · cases hvals
    · cases hvals
      rfl

theorem siteLines_eq {sites : List (String × List PyNetwork)} {lines : List Line}
    (h : siteLines py a rows sites = .ok lines) : lines = written py a rows sites := by
  induction sites generalizing lines with
  | nil =>
    cases h
    rfl
  | cons s sites ih =>
    obtain ⟨label, nets⟩ := s
    rw [siteLines] at h
    rw [written, List.filterMap_cons, ← written]
    split at h
    · next hunmeasured =>
      rw [ih h]
      cases hvals : siteValues py a rows label with
      | error e => rfl
      | ok vals =>
        cases siteValues_unmeasured hunmeasured hvals
        rfl
    · split at h
      · cases h
      · next vals hvals =>
        simp only [hvals]
        split at h
        · next hnil =>
          rw [ih h, if_pos hnil]
        · next hne =>
          split at h
          · cases h
          · next rest hrest =>
            cases h
            rw [ih hrest, if_neg hne]

/-! ### The times for all other addresses -/

/-- **The times on average** are of relays that every site has, and not negative if those of
the sites are not. -/
theorem averages_spec {lines : List Line} :
    ((∀ l ∈ lines, (l.vals.map Prod.fst).Nodup) → ((averages py lines).map Prod.fst).Nodup) ∧
    ∀ x ∈ averages py lines, (∀ l ∈ lines, x.1 ∈ l.vals.map Prod.fst) ∧
      ((∀ vs : List Binary64, (∀ v ∈ vs, v.Nonneg) → (py.sum vs).Nonneg) →
        (∀ l ∈ lines, ∀ y ∈ l.vals, y.2.Nonneg) → x.2.Nonneg) := by
  cases lines with
  | nil => exact ⟨fun _ => List.nodup_nil, List.forall_mem_nil _⟩
  | cons first rest =>
    simp only [averages]
    constructor
    · intro hnodup
      rw [List.map_map]
      have hid : (Prod.fst ∘ fun n : String => (n, (py.sum ((first :: rest).map fun l =>
          (l.vals.lookup n).getD .nan)).divNat (first :: rest).length)) = id := rfl
      rw [hid, List.map_id]
      exact (hnodup first List.mem_cons_self).filter _
    · intro x hx
      obtain ⟨n, hn, rfl⟩ := List.mem_map.mp hx
      have hall := List.all_eq_true.mp (List.mem_filter.mp hn).2
      have hmem : ∀ l ∈ first :: rest, (n, (l.vals.lookup n).getD .nan) ∈ l.vals := by
        intro l hl
        obtain ⟨v, hv⟩ := Option.isSome_iff_exists.mp (hall l hl)
        rw [hv, Option.getD_some]
        exact mem_of_lookup hv
      refine ⟨fun l hl => List.mem_map.mpr ⟨_, hmem l hl, rfl⟩, fun hsum hpos => ?_⟩
      refine Binary64.divNat_nonneg (hsum _ (List.forall_mem_map.mpr fun l hl => ?_)) _
      exact hpos l hl (n, (l.vals.lookup n).getD .nan) (hmem l hl)

/-- The times for all other addresses are on average, or those of one site. -/
theorem defaultValues_spec {lines : List Line} {default : Option (List (String × Binary64))}
    (h : defaultValues py a lines = .ok default) :
    default = none ∨
      a.default = "average" ∧ averages py lines ≠ [] ∧ default = some (averages py lines) ∨
        ∃ l ∈ lines, l.label = a.default ∧ default = some l.vals := by
  rw [defaultValues] at h
  split at h
  · next haverage =>
    cases h
    by_cases hnil : averages py lines = []
    · exact .inl (if_pos hnil)
    · exact .inr (.inl ⟨haverage.1, hnil, if_neg hnil⟩)
  · split at h
    · split at h
      · next l hl =>
        cases h
        refine .inr (.inr ⟨l, List.mem_of_find?_eq_some hl, ?_, rfl⟩)
        simpa using List.find?_some hl
      · cases h
    · cases h
      exact .inl rfl

end Inputs
end Rtt
end RustdeskServer
