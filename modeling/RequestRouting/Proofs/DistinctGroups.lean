import Mathlib.Data.List.Nodup
import Mathlib.Data.List.Perm.Subperm
import RequestRouting.Proofs.Anchoring
import RequestRouting.Proofs.Numbering

/-!
# No group twice

No two groups of an expression have one number, no two have one name, and no name begins as a number
does (`distinctGroups_of_readChars?`).
-/

namespace RequestRouting.Regex

namespace Reading

/-- No two groups have the same number, no two have the same name, and names begin as names do. -/
structure Distinct (state : Reading) : Prop where
  numbered : state.Numbered
  numbers : (state.entries.map Prod.fst).Nodup
  words : (state.entries.filterMap Prod.snd).Nodup
  named : ∀ word ∈ state.names, IsGroupName word

theorem distinct_empty : ({} : Reading).Distinct := ⟨numbered_empty, .nil, .nil, nofun⟩

variable {state next : Reading}

theorem Distinct.of_grows (hstate : state.Distinct) (hgrows : state.Grows next) :
    next.Distinct := by
  have hnumbered := hstate.numbered.of_grows hgrows
  cases hgrows with
  | kept hentries hgroups hnames =>
      obtain ⟨kept, hkept, hsub⟩ := List.subperm_ext_iff.mpr fun entry _ => hentries entry
      refine ⟨hnumbered, ?_, ?_, hnames ▸ hstate.named⟩
      · exact (hkept.map _).nodup_iff.mp (hstate.numbers.sublist (hsub.map _))
      · exact (hkept.filterMap _).nodup_iff.mp (hstate.words.sublist (hsub.filterMap _))
  | opened name hentries hgroups hnames hnew =>
      refine ⟨hnumbered, ?_, ?_, ?_⟩
      · rw [hentries, List.map_cons, List.nodup_cons]
        refine ⟨fun hmem => ?_, hstate.numbers⟩
        obtain ⟨⟨number, other⟩, hentry, heq⟩ := List.mem_map.mp hmem
        obtain ⟨_, hle, _⟩ := hstate.numbered number other hentry
        have hnumber : number = state.groups + 1 := heq
        omega
      · rw [hentries]
        cases name with
        | none => exact hstate.words
        | some word =>
            refine List.nodup_cons.mpr ⟨fun hmem => ?_, hstate.words⟩
            obtain ⟨⟨number, other⟩, hentry, heq⟩ := List.mem_filterMap.mp hmem
            obtain ⟨_, _, hknown⟩ := hstate.numbered number other hentry
            exact (hnew word rfl).1 (hknown word heq)
      · rw [hnames]
        intro word hmem
        rcases List.mem_append.mp hmem with hmem | hmem
        · exact (hnew word (Option.mem_toList.mp hmem)).2
        · exact hstate.named word hmem

end Reading

theorem readToEnd_distinct {state : Reading} (hstate : state.Distinct) {text : List Char}
    {final : Reading} (hfinal : readToEnd state text = some final) : final.Distinct :=
  readToEnd_induction (fun _ _ hdistinct => hdistinct.of_grows) hstate hfinal

/-- The groups of an expression are numbered from one on. No two of them have the same number, no
two have the same name, and names begin as names do. -/
structure DistinctGroups (r : Regex) : Prop where
  positive : ∀ number name, (number, name) ∈ r.groups → 1 ≤ number
  numbers : (r.groups.map Prod.fst).Nodup
  words : r.names.Nodup
  named : ∀ word ∈ r.names, IsGroupName word

theorem distinctGroups_of_readChars? {text : List Char} {r : Regex}
    (hread : readChars? text = some r) : r.DistinctGroups := by
  obtain ⟨final, hfinal, hclosed, rfl⟩ := exists_readToEnd_of_readChars? hread
  have hdistinct := readToEnd_distinct Reading.distinct_empty hfinal
  have hcount (entry : Nat × Option String) :
      final.level.node.groups.count entry ≤ final.entries.count entry := by
    have hlevel := Reading.count_level_le final entry
    rw [Reading.entries, List.count_append, List.count_append]
    omega
  obtain ⟨kept, hkept, hsub⟩ := List.subperm_ext_iff.mpr fun entry _ => hcount entry
  have hmem {entry : Nat × Option String} (hentry : entry ∈ final.level.node.groups) :
      entry ∈ final.entries := hsub.subset (hkept.mem_iff.mpr hentry)
  refine ⟨fun number name hgroup => (hdistinct.numbered number name (hmem hgroup)).1, ?_, ?_, ?_⟩
  · exact (hkept.map _).nodup_iff.mp (hdistinct.numbers.sublist (hsub.map _))
  · exact (hkept.filterMap _).nodup_iff.mp (hdistinct.words.sublist (hsub.filterMap _))
  · intro word hword
    obtain ⟨⟨number, name⟩, hgroup, hname⟩ := List.mem_filterMap.mp hword
    obtain ⟨_, _, hknown⟩ := hdistinct.numbered number name (hmem hgroup)
    exact hdistinct.named word (hknown word hname)

end RequestRouting.Regex
