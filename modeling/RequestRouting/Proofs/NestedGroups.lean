import RequestRouting.Proofs.Lineages
import RequestRouting.Proofs.NestedRoute
import RequestRouting.Proofs.Relocation

/-!
# A group in a group

A group inside another one, with nothing else there, does what one group does whose pattern is
the join of both (`Dispatcher.nested_groups_are_one`). Going into the outer group first leaves
no trace: its pattern matches where the joined one does, what it extracts is extracted again
under the same names, and leaving the inner chain is followed by leaving the outer one. Only
addresses differ, by the first step into the outer group (`Address.unnested`).

Putting the two trees together is not the same in all cases. The inner group reads what is in
it once more by itself, and where the star at the end of the outer pattern is not there to make
two of the one that the inner text starts with, the expression is another one. `MeetPlainly`
names the cases in which that does no harm.
-/

namespace RequestRouting

open Handler (AllParsed allParsed_cons Walks walks_nil walks_group_cons)

variable {E W : Type}

/-! ## Parameters that are taken twice -/

namespace Attributes

/-- Attributes are the same after taking over parameters if they differ in their names only. -/
theorem mergeParameters_congr {a b : Attributes} {parameters : Parameters}
    (hother : ∀ name, name ∉ parameters.map Prod.fst → a.get? name = b.get? name) :
    a.mergeParameters parameters = b.mergeParameters parameters := by
  induction parameters generalizing a b with
  | nil => exact ext_get? fun name => hother name List.not_mem_nil
  | cons parameter parameters ih =>
      refine ih fun name hname => ?_
      rw [get?_insert, get?_insert]
      split
      · rfl
      · rename_i hne
        refine hother name fun hmem => ?_
        rcases List.mem_cons.mp hmem with heq | hmem
        · exact hne heq
        · exact hname hmem

theorem get?_mergeParameters {parameters : Parameters} {name : String}
    (hname : name ∉ parameters.map Prod.fst) (a : Attributes) :
    (a.mergeParameters parameters).get? name = a.get? name := by
  induction parameters generalizing a with
  | nil => rfl
  | cons parameter parameters ih =>
      rw [List.map_cons, List.mem_cons, not_or] at hname
      refine (ih hname.2 _).trans ?_
      rw [get?_insert, if_neg hname.1]

/-- Parameters under names that are taken again leave nothing. -/
theorem mergeParameters_mergeParameters {first second : Parameters}
    (hnames : first.map Prod.fst ⊆ second.map Prod.fst) (a : Attributes) :
    (a.mergeParameters first).mergeParameters second = a.mergeParameters second :=
  mergeParameters_congr fun _ hname =>
    get?_mergeParameters (fun hmem => hname (hnames hmem)) a

end Attributes

namespace Context

variable [Routable E]

/-- Being selected under a pattern that matches takes over what the pattern extracts. -/
theorem attributes_select {p : Pattern} (condition : Option (E → Bool)) {ctx : Context E}
    (haccepts : p.accepts (Routable.path ctx.event) = true) (index : Nat) :
    ∃ parameters, p.extract (Routable.path ctx.event) = .ok parameters ∧
      parameters.map Prod.fst = p.keys ∧
      (ctx.select ⟨p, condition⟩ index).attributes =
        if p.hasCaptures then ctx.attributes.mergeParameters parameters else ctx.attributes := by
  obtain ⟨parameters, hextract, hkeys⟩ := Pattern.exists_extract_of_accepts haccepts
  refine ⟨parameters, hextract, hkeys, ?_⟩
  simp only [select, hextract]

/-- Going into a group first leaves no trace in the attributes if the groups of its pattern come
first in the pattern under which the context is selected then. -/
theorem attributes_select_select {p q : Pattern} {more : List (Nat × Option String)}
    (hgroups : q.groups = p.groups ++ more) (condition other : Option (E → Bool))
    {ctx : Context E} (hfirst : p.accepts (Routable.path ctx.event) = true)
    (hsecond : q.accepts (Routable.path ctx.event) = true) (index number : Nat) :
    ((ctx.select ⟨p, condition⟩ index).enter.select ⟨q, other⟩ number).attributes =
      (ctx.select ⟨q, other⟩ number).attributes := by
  obtain ⟨first, _, hfirstKeys, htaken⟩ := attributes_select condition hfirst index
  obtain ⟨second, hextract, hkeys, halone⟩ := attributes_select other hsecond number
  have hagain : q.accepts (Routable.path (ctx.select ⟨p, condition⟩ index).enter.event) = true :=
    hsecond
  obtain ⟨again, hagain, _, hboth⟩ := attributes_select other hagain number
  cases hextract.symm.trans hagain
  have hentered : (ctx.select ⟨p, condition⟩ index).enter.attributes =
      (ctx.select ⟨p, condition⟩ index).attributes := rfl
  rw [hboth, halone, hentered, htaken]
  by_cases hcaptures : p.hasCaptures = true
  · have hmore : q.hasCaptures = true := by
      rw [Pattern.hasCaptures_eq, decide_eq_true_eq] at hcaptures ⊢
      rw [hgroups]
      exact Nat.lt_of_lt_of_le hcaptures (Pattern.highest_le_append _ _)
    have hnames : first.map Prod.fst ⊆ second.map Prod.fst := by
      rw [hfirstKeys, hkeys]
      exact Pattern.keys_subset hgroups
    rw [if_pos hcaptures, if_pos hmore, if_pos hmore]
    exact Attributes.mergeParameters_mergeParameters hnames _
  · rw [if_neg hcaptures]

/-- A context is the same inside an inner group, whether it has gone into an outer one or not. -/
theorem enter_select_select {p q : Pattern} {more : List (Nat × Option String)}
    (hgroups : q.groups = p.groups ++ more) (condition other : Option (E → Bool))
    {ctx : Context E} (hfirst : p.accepts (Routable.path ctx.event) = true)
    (hsecond : q.accepts (Routable.path ctx.event) = true) (index number : Nat) :
    ((ctx.select ⟨p, condition⟩ index).enter.select ⟨q, other⟩ number).enter =
      (ctx.select ⟨q, other⟩ number).enter := by
  have hfields : ((ctx.select ⟨p, condition⟩ index).enter.select ⟨q, other⟩ number).enter =
      { (ctx.select ⟨q, other⟩ number).enter with
        attributes :=
          ((ctx.select ⟨p, condition⟩ index).enter.select ⟨q, other⟩ number).attributes } := rfl
  rw [hfields, attributes_select_select hgroups condition other hfirst hsecond]
  rfl

end Context

/-! ## Walks through the groups -/

/-- Where the handlers of a group in a group, both the first of their chains, are when the two
groups are one. -/
def Address.unnested : Address → Address
  | 0 :: 0 :: 0 :: inner => 0 :: 0 :: inner
  | a => a

namespace Blocking

variable [Routable E] {monitor : Monitor E W} {ctx : Context E}

/-- A fresh context goes through the chain of a group that accepts the event, and then on. -/
theorem walk_group_cons (hfresh : ctx.Fresh) {p : Predicate E}
    (haccepts : p.accepts ctx.event = true) (handlers rest : List (Handler E W))
    (address : Address) (world : W) :
    walk monitor (.group p handlers :: rest) address 0 ctx world =
      let inner := walk monitor handlers (address ++ [0]) 0 (ctx.select p 0).enter
        (monitor (.entered (address ++ [0])) world)
      let onward := walk monitor rest address 1 (inner.1.leave (ctx.select p 0).position) inner.2
      (onward.1, monitor (.left (address ++ [0])) onward.2) := by
  have hattached : ctx.position.attached = true := by rw [hfresh.position]
  have hinto : ctx.goesInto 0 (.group p handlers : Handler E W) = true :=
    (hfresh.goesInto _).trans haccepts
  rw [walk, if_pos hattached, if_pos hinto]
  rfl

/-- A group in a group makes no difference to what is inside it and behind it if the pattern of the
outer group matches too and the groups of that pattern come first in the pattern of the inner
one. -/
theorem walk_unnested (hmonitor : monitor.IgnoresAddresses) (hfresh : ctx.Fresh) {p q : Pattern}
    {more : List (Nat × Option String)} (hgroups : q.groups = p.groups ++ more)
    (houter : p.accepts (Routable.path ctx.event) = true)
    (hinner : q.accepts (Routable.path ctx.event) = true) (handlers rest : List (Handler E W))
    {o o' : Observed E W} (hsame : o.SameCalls Address.unnested o') :
    EndsSame Address.unnested
      (walk monitor.observed (Handler.observedAll
        (.group ⟨p, none⟩ [.group ⟨q, none⟩ handlers] :: rest)) [0] 0 ctx o)
      (walk monitor.observed (Handler.observedAll (.group ⟨q, none⟩ handlers :: rest)) [0] 0 ctx
        o') := by
  have haccepts (p : Pattern) (hp : p.accepts (Routable.path ctx.event) = true) :
      (⟨p, none⟩ : Predicate E).accepts ctx.event = true :=
    (Bool.and_true _).trans hp
  have hentered := hfresh.enter ⟨p, none⟩ 0
  simp only [Handler.observedAll, Handler.observed]
  rw [walk_group_cons hfresh (haccepts p houter), walk_group_cons hentered (haccepts q hinner),
    walk_group_cons hfresh (haccepts q hinner),
    Context.enter_select_select hgroups none none houter hinner]
  have hentries : ((monitor.observed (.entered [0, 0, 0])
      (monitor.observed (.entered [0, 0]) o))).SameCalls Address.unnested
      (monitor.observed (.entered [0, 0]) o') :=
    ((hsame.unnoticed (hmonitor.entered _) rfl).unnoticed (hmonitor.entered _) rfl).unnoticed_other
      (hmonitor.entered _) rfl
  have hinside : RunsSame Address.unnested
      (walk monitor.observed (Handler.observedAll handlers) [0, 0, 0] 0)
      (walk monitor.observed (Handler.observedAll handlers) [0, 0] 0) :=
    walk_relocated hmonitor handlers fun _ _ _ => rfl
  have hbehind : RunsSame Address.unnested
      (walk monitor.observed (Handler.observedAll rest) [0] 1)
      (walk monitor.observed (Handler.observedAll rest) [0] 1) := by
    refine walk_relocated hmonitor rest fun number inner hle => ?_
    cases number with
    | zero => cases hle
    | succ number => rfl
  obtain ⟨hresult, hafter⟩ := hinside (ctx.select ⟨q, none⟩ 0).enter _ _ hentries
  simp only [List.cons_append, List.nil_append, walk]
  generalize walk monitor.observed (Handler.observedAll handlers) [0, 0, 0] 0 _ _ = ran
    at hresult hafter ⊢
  generalize walk monitor.observed (Handler.observedAll handlers) [0, 0] 0 _ _ = other
    at hresult hafter ⊢
  obtain ⟨result, after⟩ := ran
  obtain ⟨_, otherAfter⟩ := other
  subst hresult
  obtain ⟨hend, hlast⟩ := hbehind (result.leave (ctx.select ⟨q, none⟩ 0).position) _ _
    (hafter.unnoticed (hmonitor.left [0, 0, 0]) rfl)
  exact ⟨hend, (hlast.unnoticed (hmonitor.left _) rfl).unnoticed_other (hmonitor.left _) rfl⟩

end Blocking

/-! ## Assembly -/

namespace Pattern

open Template (Reads Touch Element)

/-- No element that starts with a slash is a star. -/
theorem not_touch_of_slash {earlier later : List Element} {text : List Char}
    (hreads : Reads [] ('/' :: text) later) : ¬Touch earlier later := by
  rintro ⟨_, hstar⟩
  cases hreads with
  | literal _ _ _ _ =>
      unfold Template.consLiteral at hstar
      split at hstar <;> cases hstar

/-- No two stars come together behind the first pattern that are one with it, or if they do, no
placeholder behind them has an expression of its own. -/
def MeetPlainly (p q r : Pattern) : Prop :=
  p.elements.getLast? ≠ some .segment ∨ (∃ text, q.text.toList = '/' :: text) ∨
    r.isUntyped = true

/-- What is read behind two patterns that have been joined is read behind the second one. -/
theorem Parsed.exists_join_of_join {p q r combined : Pattern} (hp : p.Parsed) (hq : q.Parsed)
    (hr : r.Parsed) (huntyped : p.isUntyped = true) (hother : q.isUntyped = true)
    (hplainly : MeetPlainly p q r) (hjoin : join p q = .ok combined)
    (hbehind : ∃ joined, join combined r = .ok joined) : ∃ own, join q r = .ok own := by
  obtain ⟨hcombined, htext, _⟩ := hp.of_join hq hjoin
  obtain ⟨joined, hjoined⟩ := hbehind
  rw [hcombined.join_eq hr, htext, String.append_assoc] at hjoined
  have hlist : (q.text ++ r.text).toList = q.text.toList ++ r.text.toList := String.toList_append
  rw [hq.join_eq hr]
  refine hp.exists_parse_of_append huntyped ?_ ?_ hjoined
  · rw [hlist]
    exact opensProperly_append hq.opensProperly hr.opensProperly
  · intro later hreads htouch
    rcases hplainly with hends | ⟨text, hslash⟩ | hlater
    · exact absurd htouch.1 hends
    · rw [hlist, hslash] at hreads
      exact absurd htouch (not_touch_of_slash hreads)
    · have htogether : together [q, r] = q.text ++ r.text :=
        congrArg (q.text ++ ·) String.append_empty
      rw [← htogether] at hreads
      refine untyped_of_reads_together ?_ hreads
      simp [hq, hr, hother, hlater]

end Pattern

namespace Dispatcher

variable {p q : Pattern} {handlers : List (Handler E W)}

/-- The dispatcher for a group in a group, in front of other handlers. -/
def ofNestedGroups (p q : Pattern) (handlers rest : List (Handler E W)) :
    Except PatternError (Dispatcher E W) := do
  let inner ← Handler.groupOf ⟨q, none⟩ handlers
  let outer ← Handler.groupOf ⟨p, none⟩ [inner]
  ofHandlers (outer :: rest)

/-- The dispatcher for one group with both patterns, in front of other handlers. -/
def ofJoinedGroup (p q : Pattern) (handlers rest : List (Handler E W)) :
    Except PatternError (Dispatcher E W) := do
  let combined ← Pattern.join p q
  let group ← Handler.groupOf ⟨combined, none⟩ handlers
  ofHandlers (group :: rest)

variable (hp : p.Parsed) (hq : q.Parsed) (hhandlers : AllParsed handlers)
  (rest : List (Handler E W)) (d : Dispatcher E W)

include hp hq hhandlers

theorem ofJoinedGroup_eq_ok_iff :
    ofJoinedGroup p q handlers rest = .ok d ↔
      ∃ combined, Pattern.join p q = .ok combined ∧
        ∃ inner, Handler.mountAll combined handlers = .ok inner ∧
          ∃ others, Handler.mountAll Pattern.any rest = .ok others ∧
            ⟨.group Predicate.any (.group ⟨combined, none⟩ inner :: others)⟩ = d := by
  simp only [ofJoinedGroup, bind, bind_eq_ok_iff]
  refine exists_congr fun combined => and_congr_right fun hjoin => ?_
  have hcombined := (hp.of_join hq hjoin).1
  simp only [Handler.groupOf_eq_ok_iff, ofHandlers_eq_ok_iff, Handler.mountAll_cons_eq_ok_iff]
  have hmount {inner : List (Handler E W)}
      (hinner : Handler.mountAll combined handlers = .ok inner) :
      Handler.mount Pattern.any (.group ⟨combined, none⟩ inner) =
        .ok (.group ⟨combined, none⟩ inner) :=
    Handler.mount_any hcombined (hhandlers.of_mountAll hcombined hinner).mountAll_any
  constructor
  · rintro ⟨_, ⟨inner, hinner, rfl⟩, _, ⟨first, hfirst, others, hothers, rfl⟩, rfl⟩
    rw [hmount hinner] at hfirst
    cases hfirst
    exact ⟨inner, hinner, others, hothers, rfl⟩
  · rintro ⟨inner, hinner, others, hothers, rfl⟩
    exact ⟨_, ⟨inner, hinner, rfl⟩, _, ⟨_, hmount hinner, others, hothers, rfl⟩, rfl⟩

theorem ofNestedGroups_eq_ok_iff :
    ofNestedGroups p q handlers rest = .ok d ↔
      ∃ combined, Pattern.join p q = .ok combined ∧
        ∃ inner, Handler.mountAll combined handlers = .ok inner ∧
          (∃ alone, Handler.mountAll q handlers = .ok alone) ∧
          ∃ others, Handler.mountAll Pattern.any rest = .ok others ∧
            ⟨.group Predicate.any
              (.group ⟨p, none⟩ [.group ⟨combined, none⟩ inner] :: others)⟩ = d := by
  have hmount {combined : Pattern} {inner : List (Handler E W)}
      (hjoin : Pattern.join p q = .ok combined)
      (hinner : Handler.mountAll combined handlers = .ok inner) :
      Handler.mount Pattern.any (.group ⟨p, none⟩ [.group ⟨combined, none⟩ inner]) =
        .ok (.group ⟨p, none⟩ [.group ⟨combined, none⟩ inner]) := by
    have hcombined := (hp.of_join hq hjoin).1
    have hinside : AllParsed [.group ⟨combined, none⟩ inner] :=
      allParsed_cons.mpr ⟨hcombined, hhandlers.of_mountAll hcombined hinner, nofun⟩
    exact Handler.mount_any hp hinside.mountAll_any
  simp only [ofNestedGroups, bind, bind_eq_ok_iff, Handler.groupOf_eq_ok_iff, ofHandlers_eq_ok_iff,
    Handler.mountAll_cons_eq_ok_iff]
  constructor
  · rintro ⟨_, ⟨alone, halone, rfl⟩, _, ⟨_, ⟨_, hfirst, _, hnil, rfl⟩, rfl⟩,
      _, ⟨_, houter, others, hothers, rfl⟩, rfl⟩
    cases hnil
    obtain ⟨combined, hjoin, inner, hinner, rfl⟩ := Handler.mount_eq_ok_iff.mp hfirst
    rw [Handler.inside, hhandlers.mountAll_mountAll hq hp hjoin halone] at hinner
    cases (hmount hjoin hinner).symm.trans houter
    exact ⟨combined, hjoin, inner, hinner, ⟨alone, halone⟩, others, hothers, rfl⟩
  · rintro ⟨combined, hjoin, inner, hinner, ⟨alone, halone⟩, others, hothers, rfl⟩
    have hmounted := (hhandlers.mountAll_mountAll hq hp hjoin halone).trans hinner
    have hfirst : Handler.mount p (.group ⟨q, none⟩ alone : Handler E W) =
        .ok (.group ⟨combined, none⟩ inner) :=
      Handler.mount_eq_ok_iff.mpr ⟨combined, hjoin, inner, hmounted, rfl⟩
    exact ⟨_, ⟨alone, halone, rfl⟩, _, ⟨_, ⟨_, hfirst, [], rfl, rfl⟩, rfl⟩, _,
      ⟨_, hmount hjoin hinner, others, hothers, rfl⟩, rfl⟩

end Dispatcher

/-! ## Dispatches -/

namespace Handler

variable [Routable E] {ctx result : Context E} {seen : List (Notice E)} {p : Pattern}
  {handlers rest : List (Handler E W)}

/-- What comes behind the first handler of a chain does not call what is inside that. -/
theorem not_called_of_walks_behind (hwalk : Walks rest [0] 1 ctx result seen) :
    ∀ call ∈ callsOf seen, ¬[0, 0] <+: call.1 := by
  rintro ⟨a, start⟩ hcall hinside
  obtain ⟨notice, hnotice, hcalled⟩ := List.mem_filterMap.mp hcall
  obtain ⟨b, hb, number, inner, hle, rfl⟩ := hwalk.within notice hnotice
  have ha : notice.address? = some a := by
    cases notice <;> cases hcalled
    rfl
  cases ha.symm.trans hb
  obtain ⟨_, heq⟩ := hinside
  cases heq
  cases hle

/-- If the pattern of the first group does not match, nothing inside it is called. -/
theorem not_called_of_refused (hfresh : ctx.Fresh)
    (hrefuses : p.accepts (Routable.path ctx.event) = false)
    (hwalk : Walks (group ⟨p, none⟩ handlers :: rest) [0] 0 ctx result seen) :
    ∀ call ∈ callsOf seen, ¬[0, 0] <+: call.1 := by
  rcases walks_group_cons hfresh hwalk with ⟨_, hlater⟩ | ⟨haccepts, _⟩
  · exact not_called_of_walks_behind hlater
  · rw [Predicate.accepts, hrefuses] at haccepts
    cases haccepts

/-- Nor is it if that is so for the group inside the first group. -/
theorem not_called_of_refused_inside {q : Pattern} (hfresh : ctx.Fresh)
    (hrefuses : q.accepts (Routable.path ctx.event) = false)
    (hwalk : Walks (group ⟨p, none⟩ [group ⟨q, none⟩ handlers] :: rest) [0] 0 ctx result seen) :
    ∀ call ∈ callsOf seen, ¬[0, 0] <+: call.1 := by
  rcases walks_group_cons hfresh hwalk with
    ⟨_, hlater⟩ | ⟨_, middle, inner, later, hinner, hlater, rfl⟩
  · exact not_called_of_walks_behind hlater
  · have hnone : inner = [] := by
      rcases walks_group_cons (hfresh.enter _ 0) hinner with ⟨_, hpast⟩ | ⟨haccepts, _⟩
      · exact (walks_nil hpast).2
      · have hpath : q.accepts (Routable.path ctx.event) && true = true := haccepts
        rw [hrefuses] at hpath
        cases hpath
    subst hnone
    have hcalls : callsOf (.entered ([0] ++ [0]) :: ([] ++ later ++ [.left ([0] ++ [0])])) =
        callsOf later := by
      change callsOf (later ++ [.left [0, 0]]) = _
      rw [callsOf_append]
      exact List.append_nil _
    rw [hcalls]
    exact not_called_of_walks_behind hlater

end Handler

namespace Dispatcher

variable [Routable E] {monitor : Monitor E W} {event : E} {attributes : Attributes}
  {handlers : List (Handler E W)}

/-- The calls of a dispatch are those of the chain at the top. -/
theorem exists_walks_top (handlers : List (Handler E W)) (monitor : Monitor E W) (event : E)
    (attributes : Attributes) (world : W) :
    ∃ middle inner,
      Walks handlers [0] 0 ((startContext event attributes).select Predicate.any 0).enter middle
        inner ∧
      callsOf (notices ⟨.group Predicate.any handlers⟩ monitor event attributes world) =
        callsOf inner := by
  obtain ⟨seen, hwalk, hnotices⟩ :=
    walks_notices ⟨.group Predicate.any handlers⟩ monitor event attributes world
  rcases walks_group_cons (Context.fresh_startContext event attributes) hwalk with
    ⟨hrefuses, _⟩ | ⟨_, middle, inner, later, hinner, hlater, rfl⟩
  · cases hrefuses
  · obtain ⟨_, rfl⟩ := walks_nil hlater
    refine ⟨middle, inner, hinner, ?_⟩
    rw [hnotices]
    change callsOf (inner ++ [] ++ [.left [0]]) = _
    rw [callsOf_append, List.append_nil]
    exact List.append_nil _

/-- Where an observed dispatch of a chain at the top gets to: the walk through the chain, and
back in the chain around it. -/
theorem process_observed_top (handlers : List (Handler E W)) (monitor : Monitor E W) (event : E)
    (attributes : Attributes) (o : Observed E W) :
    (observed ⟨.group Predicate.any handlers⟩).process monitor.observed event attributes o =
      let start := (startContext event attributes).select Predicate.any 0
      let inner := Blocking.walk monitor.observed (Handler.observedAll handlers) [0] 0 start.enter
        (monitor.observed (.entered [0])
          (monitor.observed (.dispatching (Routable.path event)) o))
      ((inner.1.leave start.position).atEnd 1, monitor.observed (.left [0]) inner.2) :=
  Blocking.walk_group_cons (Context.fresh_startContext event attributes) rfl _ _ _ _

/-- Dispatches end the same if the walks through the chains at the top do. -/
theorem process_eq_of_endsSame {ρ : Address → Address} (hmonitor : monitor.IgnoresAddresses)
    {handlers others : List (Handler E W)}
    (hwalks : ∀ (ctx : Context E) (o : Observed E W), ctx.Fresh → ctx.event = event →
      o.SameCalls ρ o →
      EndsSame ρ (Blocking.walk monitor.observed (Handler.observedAll handlers) [0] 0 ctx o)
        (Blocking.walk monitor.observed (Handler.observedAll others) [0] 0 ctx o)) (world : W) :
    process ⟨.group Predicate.any others⟩ monitor event attributes world =
        process ⟨.group Predicate.any handlers⟩ monitor event attributes world ∧
      callsOf (notices ⟨.group Predicate.any others⟩ monitor event attributes world) =
        (callsOf (notices ⟨.group Predicate.any handlers⟩ monitor event attributes world)).map
          fun call => (ρ call.1, call.2) := by
  have hfresh := (Context.fresh_startContext event attributes).enter Predicate.any 0
  obtain ⟨hresult, hsame⟩ := hwalks _
    (monitor.observed (.entered [0])
      (monitor.observed (.dispatching (Routable.path event)) ⟨world, []⟩)) hfresh rfl ⟨rfl, rfl⟩
  have hends : EndsSame ρ
      ((observed ⟨.group Predicate.any handlers⟩).process monitor.observed event attributes
        ⟨world, []⟩)
      ((observed ⟨.group Predicate.any others⟩).process monitor.observed event attributes
        ⟨world, []⟩) := by
    rw [process_observed_top, process_observed_top]
    refine ⟨?_, (hsame.unnoticed (hmonitor.left _) rfl).unnoticed_other (hmonitor.left _) rfl⟩
    simp only [hresult]
  obtain ⟨hctx, hworld⟩ := process_observed ⟨.group Predicate.any handlers⟩ monitor event
    attributes ⟨world, []⟩
  obtain ⟨hctxOther, hworldOther⟩ := process_observed ⟨.group Predicate.any others⟩ monitor event
    attributes ⟨world, []⟩
  refine ⟨Prod.ext ?_ ?_, hends.2.calls.symm⟩
  · rw [← hctx, ← hctxOther, hends.1]
  · rw [← hworld, ← hworldOther, hends.2.world]

/-- A group in a group is one group with both patterns joined, where the outer pattern is for
leading parts of paths and neither has a placeholder with an expression of its own. If the nested
groups can be put together, the one group can; and the other way round, unless two stars come
together behind the outer pattern with a placeholder with an expression of its own behind them.
Then, for an event that the joined pattern accepts, the two dispatches call the same callbacks in
the same order, with the same contexts, and end with the same context in the same world. For any
other event, neither calls what is in the group. -/
theorem nested_groups_are_one {p q : Pattern} {handlers rest : List (Handler E W)}
    (hp : p.Parsed) (hq : q.Parsed) (hleading : p.extent = .leading) (huntyped : p.isUntyped = true)
    (hother : q.isUntyped = true) (hhandlers : AllParsed handlers) :
    ((∃ d, ofNestedGroups p q handlers rest = .ok d) →
      ∃ twin, ofJoinedGroup p q handlers rest = .ok twin) ∧
    ((∀ r ∈ Handler.patternsAll handlers, Pattern.MeetPlainly p q r) →
      (∃ twin, ofJoinedGroup p q handlers rest = .ok twin) →
      ∃ d, ofNestedGroups p q handlers rest = .ok d) ∧
    ∀ d twin, ofNestedGroups p q handlers rest = .ok d →
      ofJoinedGroup p q handlers rest = .ok twin →
      ∃ combined, Pattern.join p q = .ok combined ∧
        ∀ monitor : Monitor E W, monitor.IgnoresAddresses →
          ∀ (event : E) (attributes : Attributes) (world : W),
            (combined.accepts (Routable.path event) = true →
              twin.process monitor event attributes world =
                  d.process monitor event attributes world ∧
                callsOf (twin.notices monitor event attributes world) =
                  (callsOf (d.notices monitor event attributes world)).map
                    fun call => (Address.unnested call.1, call.2)) ∧
            (combined.accepts (Routable.path event) = false →
              (∀ call ∈ callsOf (d.notices monitor event attributes world),
                ¬[0, 0] <+: call.1) ∧
              ∀ call ∈ callsOf (twin.notices monitor event attributes world),
                ¬[0, 0] <+: call.1) := by
  have hnested (d : Dispatcher E W) := ofNestedGroups_eq_ok_iff hp hq hhandlers rest d
  have hone (d : Dispatcher E W) := ofJoinedGroup_eq_ok_iff hp hq hhandlers rest d
  refine ⟨?nested, ?joined, ?dispatches⟩
  case nested =>
    rintro ⟨d, hd⟩
    obtain ⟨combined, hjoin, inner, hinner, _, others, hothers, _⟩ := (hnested _).mp hd
    exact ⟨_, (hone _).mpr ⟨combined, hjoin, inner, hinner, others, hothers, rfl⟩⟩
  case joined =>
    rintro hplainly ⟨twin, htwin⟩
    obtain ⟨combined, hjoin, inner, hinner, others, hothers, _⟩ := (hone _).mp htwin
    have hbehind := Handler.exists_mountAll_iff.mp ⟨inner, hinner⟩
    have halone := Handler.exists_mountAll_iff.mpr fun r hr =>
      hp.exists_join_of_join hq (hhandlers r hr) huntyped hother (hplainly r hr) hjoin
        (hbehind r hr)
    exact ⟨_, (hnested _).mpr ⟨combined, hjoin, inner, hinner, halone, others, hothers, rfl⟩⟩
  case dispatches =>
    intro d twin hd htwin
    obtain ⟨combined, hjoin, inner, hinner, _, others, hothers, rfl⟩ := (hnested _).mp hd
    obtain ⟨_, hjoin', _, hinner', _, hothers', rfl⟩ := (hone _).mp htwin
    cases hjoin.symm.trans hjoin'
    cases hinner.symm.trans hinner'
    cases hothers.symm.trans hothers'
    refine ⟨combined, hjoin, fun monitor hmonitor event attributes world => ⟨?_, ?_⟩⟩
    · intro haccepts
      obtain ⟨more, hgroups⟩ := hp.exists_groups_of_join hq huntyped hother hjoin
      have houter := hp.accepts_of_join hq huntyped hother hleading hjoin haccepts
      refine process_eq_of_endsSame hmonitor (fun ctx o hfresh hevent hsame => ?_) world
      subst hevent
      exact Blocking.walk_unnested hmonitor hfresh hgroups houter haccepts inner others hsame
    · intro hrefuses
      have hfresh := (Context.fresh_startContext event attributes).enter Predicate.any 0
      obtain ⟨_, nested, hnestedWalk, hnestedCalls⟩ := exists_walks_top
        (.group ⟨p, none⟩ [.group ⟨combined, none⟩ inner] :: others) monitor event attributes world
      obtain ⟨_, one, honeWalk, honeCalls⟩ := exists_walks_top
        (.group ⟨combined, none⟩ inner :: others) monitor event attributes world
      rw [hnestedCalls, honeCalls]
      exact ⟨Handler.not_called_of_refused_inside hfresh hrefuses hnestedWalk,
        Handler.not_called_of_refused hfresh hrefuses honeWalk⟩

/-- A route for the rest of a path. -/
def routeOnly (r : Pattern) : List (Handler TextEvent Unit) := [.on ⟨r, none⟩ Plan.unchanged]

theorem allParsed_routeOnly {r : Pattern} (hr : r.Parsed) : AllParsed (routeOnly r) :=
  allParsed_cons.mpr ⟨hr, nofun, nofun⟩

/-- Two groups under literals, with a route in the inner one. -/
theorem nested_groups_are_one_of_literals :
    ∃ d twin, ofNestedGroups (.literal ⟨"/api", .leading⟩) (.literal ⟨"/v1", .leading⟩)
        (routeOnly (.literal ⟨"/users", .whole⟩)) [] = .ok d ∧
      ofJoinedGroup (.literal ⟨"/api", .leading⟩) (.literal ⟨"/v1", .leading⟩)
        (routeOnly (.literal ⟨"/users", .whole⟩)) [] = .ok twin ∧
      twin.process Monitor.silent ⟨"/api/v1/users"⟩ Attributes.empty () =
        d.process Monitor.silent ⟨"/api/v1/users"⟩ Attributes.empty () ∧
      callsOf (twin.notices Monitor.silent ⟨"/api/v1/users"⟩ Attributes.empty ()) ≠ [] := by
  have hhandlers := allParsed_routeOnly ⟨"/users", .whole, rfl⟩
  have hnested : ofNestedGroups (.literal ⟨"/api", .leading⟩) (.literal ⟨"/v1", .leading⟩)
      (routeOnly (.literal ⟨"/users", .whole⟩)) [] = .ok _ := rfl
  obtain ⟨combined, hjoin, hdispatch⟩ := (nested_groups_are_one ⟨"/api", .leading, rfl⟩
    ⟨"/v1", .leading, rfl⟩ rfl rfl rfl hhandlers).2.2 _ _ hnested rfl
  obtain rfl : Pattern.literal ⟨"/api/v1", .leading⟩ = combined := Except.ok.inj hjoin
  obtain ⟨haccepted, _⟩ :=
    hdispatch Monitor.silent Monitor.silent_ignoresAddresses ⟨"/api/v1/users"⟩ Attributes.empty ()
  exact ⟨_, _, rfl, rfl, (haccepted rfl).1, List.cons_ne_nil _ _⟩

end Dispatcher

/-! ### Stars that come together -/

namespace Pattern

/-- Whether characters are read as a template. -/
def readsTemplate (text : List Char) (extent : Extent) : Bool :=
  Template.opensProperly text &&
    match Template.readElements [] text with
    | .ok elements =>
        (Regex.readChars? (Expression.anchored (Template.bodyOf elements) extent)).isSome
    | .error _ => false

theorem toBool_parse_of_template {text : String} {extent : Extent}
    (htemplate : readsAsTemplate text.toList = true) :
    (parse text extent).toBool = readsTemplate text.toList extent := by
  have hparse (p : Pattern) : parse text extent = .ok p ↔
      ∃ t, Template.ofText text extent = .ok t ∧ template t = p := by
    rw [parse_eq_ok_iff, htemplate]
    simp
  rw [Bool.eq_iff_iff, toBool_iff, readsTemplate]
  simp only [hparse, Template.ofText_eq_ok_iff, Bool.and_eq_true]
  cases Template.readElements [] text.toList with
  | error fault => simp
  | ok elements => simp [Option.isSome_iff_exists]

/-- A route whose text closes the groups around it and nests almost as deeply as an expression
may. -/
def deepText : List Char :=
  "/\x7bc:x))".toList ++ List.replicate 245 '*' ++ "(?:(?:y\x7d".toList

end Pattern

namespace Dispatcher

/-- Behind one star, the text of the route nests as deeply as it may not; behind two, which match
a single character of any kind but one and not a class of characters, it may. So the nested
groups are refused when the inner one is put together, and one group with both stars is not. -/
theorem joined_stars_accepted_where_nested_refused :
    ∃ p r, Pattern.parse "*" .leading = .ok p ∧ p.isUntyped = true ∧
      Pattern.parse (String.ofList Pattern.deepText) .whole = .ok r ∧
      (∃ twin, ofJoinedGroup p p (routeOnly r) [] = .ok twin) ∧
      ¬∃ d, ofNestedGroups p p (routeOnly r) [] = .ok d := by
  have hstar : (Pattern.parse "*" .leading).toOption.map Pattern.isUntyped = some true := by
    decide +kernel
  have hstars : (Pattern.parse ("*" ++ "*") .leading).toBool = true := by decide +kernel
  have hroute : (Pattern.parse (String.ofList Pattern.deepText) .whole).toBool = true := by
    rw [Pattern.toBool_parse_of_template] <;> rw [String.toList_ofList] <;> decide +kernel
  have hone (text : List Char) : ("*" ++ String.ofList text).toList = '*' :: text := by simp
  have htwo (text : List Char) :
      ("*" ++ "*" ++ String.ofList text).toList = '*' :: '*' :: text := by simp
  have hnested :
      (Pattern.parse ("*" ++ String.ofList Pattern.deepText) .whole).toBool = false := by
    rw [Pattern.toBool_parse_of_template] <;> rw [hone] <;> decide +kernel
  have hjoined :
      (Pattern.parse ("*" ++ "*" ++ String.ofList Pattern.deepText) .whole).toBool = true := by
    rw [Pattern.toBool_parse_of_template] <;> rw [htwo] <;> decide +kernel
  obtain ⟨p, hp, huntyped⟩ : ∃ p, Pattern.parse "*" .leading = .ok p ∧ p.isUntyped = true := by
    cases hp : Pattern.parse "*" .leading with
    | error fault =>
        rw [hp] at hstar
        cases hstar
    | ok p =>
        rw [hp] at hstar
        exact ⟨p, rfl, Option.some.inj hstar⟩
  obtain ⟨r, hr⟩ := Pattern.toBool_iff.mp hroute
  obtain ⟨combined, hcombined⟩ := Pattern.toBool_iff.mp hstars
  have hpParsed : p.Parsed := ⟨_, _, hp⟩
  have hrParsed : r.Parsed := ⟨_, _, hr⟩
  have hcombinedParsed : combined.Parsed := ⟨_, _, hcombined⟩
  have hpatterns : Handler.patternsAll (routeOnly r) = [r] := rfl
  refine ⟨p, r, hp, huntyped, hr, ?_, ?_⟩
  · have hjoin : Pattern.join p p = .ok combined := by
      rw [hpParsed.join_eq hpParsed, Pattern.text_of_parse hp, Pattern.extent_of_parse hp,
        hcombined]
    obtain ⟨inner, hinner⟩ : ∃ inner, Handler.mountAll combined (routeOnly r) = .ok inner := by
      rw [Handler.exists_mountAll_iff, hpatterns, List.forall_mem_singleton,
        hcombinedParsed.join_eq hrParsed, Pattern.text_of_parse hcombined, Pattern.text_of_parse hr,
        Pattern.extent_of_parse hr]
      exact Pattern.toBool_iff.mp hjoined
    exact ⟨_, (ofJoinedGroup_eq_ok_iff hpParsed hpParsed (allParsed_routeOnly hrParsed) _ _).mpr
      ⟨combined, hjoin, inner, hinner, [], rfl, rfl⟩⟩
  · rintro ⟨d, hd⟩
    obtain ⟨_, _, _, _, halone, _⟩ :=
      (ofNestedGroups_eq_ok_iff hpParsed hpParsed (allParsed_routeOnly hrParsed) _ _).mp hd
    rw [Handler.exists_mountAll_iff, hpatterns, List.forall_mem_singleton,
      hpParsed.join_eq hrParsed, Pattern.text_of_parse hp, Pattern.text_of_parse hr,
      Pattern.extent_of_parse hr, ← Pattern.toBool_iff, hnested] at halone
    cases halone

end Dispatcher

end RequestRouting
