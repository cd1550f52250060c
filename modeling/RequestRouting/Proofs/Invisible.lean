import RequestRouting.Http.Logging
import RequestRouting.Http.Router
import RequestRouting.Proofs.Transparent
import RequestRouting.TextEvent

/-!
# Invisible filters

What holds of filters that pass on (`Dispatcher.process_inserted`) comes to the handlers as
they are written: a filter for everything is put into a list of handlers whose groups are
still to be put together. If the groups around it are literal and read as such, the filter is
under a literal pattern in the dispatcher and extracts nothing. The filter that logs requests
passes on as well; it writes to the trace, which callbacks do not see, so a router answers the
same with it and without it.
-/

namespace RequestRouting

open Handler (Throughout throughout_nil throughout_cons)

variable {E W : Type}

/-! ## Request logging -/

namespace Journal

/-- The change is one of the trace only. -/
def TracesOnly (change : Journal → Journal) : Prop :=
  ∀ j, (change j).log = j.log ∧ (change j).count = j.count

theorem tracesOnly_emit (level : Trace.Level) (message : String) (fields : Trace.Fields) :
    TracesOnly (·.emit level message fields) :=
  fun _ => ⟨rfl, rfl⟩

theorem tracesOnly_openSpan (span : Trace.Span) : TracesOnly (·.openSpan span) :=
  fun _ => ⟨rfl, rfl⟩

theorem tracesOnly_recordField (label : String) (value : Trace.FieldValue) :
    TracesOnly (·.recordField label value) := by
  intro j
  simp only [recordField]
  split <;> exact ⟨rfl, rfl⟩

theorem tracesOnly_requestCompleted (ctx : Context Http.Call) (depth : Nat) :
    TracesOnly fun j => (j.requestCompleted ctx).closeTo depth := by
  intro j
  simp only [requestCompleted, closeTo]
  have hrecorded (code : Nat) := tracesOnly_recordField "status" (.number code) j
  cases ctx.event.response <;> cases ctx.exception <;> simp [emit, hrecorded]

end Journal

namespace Http

/-- The answer of a router depends on the event and the exception only. -/
theorem Settings.resolve_eq_of_agrees (s : Settings) {ctx other : Context Call}
    (hagrees : ctx.Agrees other) : s.resolve ctx = s.resolve other := by
  simp only [resolve, hagrees.event, hagrees.exception]

/-- The router for a list of handlers whose groups are still to be put together. -/
def Router.assembled (handlers : List (Handler Call W)) (settings : Settings) :
    Except PatternError (Router W) :=
  (Handler.assembleAll handlers).bind fun handlers => Router.ofHandlers handlers settings

theorem Router.assembled_eq (handlers : List (Handler Call W)) (settings : Settings) :
    Router.assembled handlers settings =
      (Dispatcher.assembled handlers).map fun dispatcher => { dispatcher, settings } := by
  simp only [Router.assembled, Dispatcher.assembled, Router.ofHandlers]
  cases Handler.assembleAll handlers <;> rfl

end Http

section Router

variable [HasJournal W] {Q : W → W → Prop}

/-- Worlds that cannot be told apart include all that differ in their trace only. -/
structure IgnoresTrace (Q : W → W → Prop) : Prop where
  equivalence : Equivalence Q
  traced : ∀ change, Journal.TracesOnly change → ∀ world, Q world (HasJournal.change change world)

namespace IgnoresTrace

variable (hQ : IgnoresTrace Q)

include hQ

theorem unseen {change : Journal → Journal} (htraces : Journal.TracesOnly change) :
    Unseen Q (HasJournal.change change) :=
  fun _ other halike => hQ.equivalence.trans halike (hQ.traced change htraces other)

/-- What an engine reports about a dispatch is not seen. -/
theorem reporting (engine : Engine) (notice : Notice E) (world : W) :
    Q world (engine.reporting notice world) := by
  cases notice with
  | dispatching | failed => exact hQ.traced _ (Journal.tracesOnly_emit _ _ _) world
  | entered | left | called | returned => exact hQ.equivalence.refl world

/-- The filter that logs requests passes on. -/
theorem logging_passesOn :
    ∃ callback, (Handler.logging : Handler Http.Call W) = .filter Predicate.any callback ∧
      ∀ ctx, (callback ctx).PassesOn Q ctx := by
  refine ⟨_, rfl, fun ctx => ⟨fun _ _ halike => halike, fun world => ?_⟩⟩
  refine ⟨hQ.unseen (Journal.tracesOnly_openSpan _), fun _ => ⟨rfl, fun result => ?_⟩⟩
  exact ⟨hQ.unseen (Journal.tracesOnly_requestCompleted result _), fun _ => rfl⟩

end IgnoresTrace

namespace Http

/-- A router answers the same with and without a filter that passes on. -/
theorem Router.process_inserted (hQ : IgnoresTrace Q) {callback : Callback Call W}
    (hpasses : ∀ ctx, (callback ctx).PassesOn Q ctx) {place : Address}
    {handlers extended : List (Handler Call W)} {settings : Settings} {r : Router W}
    (hinserted : Handler.Inserted Pattern.ReadsAsLiteral (.filter Predicate.any callback) 0 place
      handlers extended)
    (hoblivious : Throughout (fun h _ => h.Oblivious Q) handlers)
    (hbuilt : Router.assembled handlers settings = .ok r) :
    ∃ longer, Router.assembled extended settings = .ok longer ∧
      ∀ request attributes world, (longer.process .blocking request attributes world).1 =
        (r.process .blocking request attributes world).1 := by
  rw [Router.assembled_eq, map_eq_ok_iff] at hbuilt
  obtain ⟨d, hd, rfl⟩ := hbuilt
  obtain ⟨q, longer, hliteral, hlonger, hinserted⟩ := Dispatcher.assembled_inserted hinserted hd
  refine ⟨{ dispatcher := longer, settings }, ?_, fun request attributes world => ?_⟩
  · rw [Router.assembled_eq, hlonger]
    rfl
  · have hagrees := Dispatcher.agreesBut_of_inserted hQ.equivalence (hQ.reporting .blocking)
      hliteral.hasCaptures_eq_false hpasses hinserted
      (Dispatcher.throughout_assembled hoblivious hd)
    exact (settings.resolve_eq_of_agrees (hagrees { request } attributes world).1).symm

end Http

end Router

/-! ## Invisible filters -/

/-- A filter that runs the rest of its chain and returns the result is invisible in a tree if
its pattern has no parameters: callbacks that look at neither predicates nor positions are
called in the same order, with contexts that agree, and the dispatch ends with a context that
agrees, where `Q` relates the worlds that callbacks cannot tell apart. As the handlers are
written, such a filter for everything can be put into any of their lists, at the top or inside
groups that are literal and read as such. There, the filter that logs requests does not change
what a router answers. -/
theorem passing_filter_is_invisible :
    (∀ {E W : Type} [Routable E] {Q : W → W → Prop} {monitor : Monitor E W} {p : Predicate E}
        {spot : Address} {d longer : Dispatcher E W},
      Equivalence Q → (∀ notice world, Q world (monitor notice world)) →
      p.pattern.hasCaptures = false →
      Handler.Inserted (fun _ => True) (.filter p Plan.proceed) 0 spot [d.root] [longer.root] →
      Throughout (fun h _ => h.Oblivious Q) [d.root] →
      d.AgreesBut spot monitor longer) ∧
    (∀ {E W : Type} [Routable E] {Q : W → W → Prop} {monitor : Monitor E W} {place : Address}
        {handlers extended : List (Handler E W)} {d : Dispatcher E W},
      Equivalence Q → (∀ notice world, Q world (monitor notice world)) →
      Handler.Inserted Pattern.ReadsAsLiteral (.filter Predicate.any Plan.proceed) 0 place
        handlers extended →
      Throughout (fun h _ => h.Oblivious Q) handlers →
      Dispatcher.assembled handlers = .ok d →
      ∃ longer, Dispatcher.assembled extended = .ok longer ∧
        d.AgreesBut (0 :: place) monitor longer) ∧
    (∀ {W : Type} [HasJournal W] {Q : W → W → Prop} {place : Address}
        {handlers extended : List (Handler Http.Call W)} {settings : Http.Settings}
        {r : Http.Router W},
      IgnoresTrace Q →
      Handler.Inserted Pattern.ReadsAsLiteral Handler.logging 0 place handlers extended →
      Throughout (fun h _ => h.Oblivious Q) handlers →
      Http.Router.assembled handlers settings = .ok r →
      ∃ logged, Http.Router.assembled extended settings = .ok logged ∧
        ∀ request attributes world, (logged.process .blocking request attributes world).1 =
          (r.process .blocking request attributes world).1) := by
  refine ⟨?tree, ?lists, ?router⟩
  case tree =>
    intro E W _ Q monitor p spot d longer hQ hmonitor hpattern hinserted hoblivious
    exact Dispatcher.agreesBut_of_inserted hQ hmonitor hpattern (Plan.proceed_passesOn Q)
      hinserted hoblivious
  case lists =>
    intro E W _ Q monitor place handlers extended d hQ hmonitor hinserted hoblivious hbuilt
    obtain ⟨q, longer, hliteral, hlonger, hroots⟩ :=
      Dispatcher.assembled_inserted hinserted hbuilt
    refine ⟨longer, hlonger, ?_⟩
    exact Dispatcher.agreesBut_of_inserted hQ hmonitor hliteral.hasCaptures_eq_false
      (Plan.proceed_passesOn Q) hroots (Dispatcher.throughout_assembled hoblivious hbuilt)
  case router =>
    intro W _ Q place handlers extended settings r hQ hinserted hoblivious hbuilt
    obtain ⟨callback, hlogging, hpasses⟩ := hQ.logging_passesOn
    rw [hlogging] at hinserted
    exact Http.Router.process_inserted hQ hpasses hinserted hoblivious hbuilt

/-! ### Literals that read as templates -/

theorem Handler.oblivious_redirect {S : W → W → Prop} (p : Predicate E) (event : E) :
    (Handler.filter p fun ctx => .next (ctx.withEvent event) .done).Oblivious S := by
  rintro _ ⟨⟩ R _ ctx other hctx
  exact .next { hctx with event := rfl } fun _ _ hresult => .done hresult

/-- A group under a literal with braces, with a filter in it that sends requests to another
path, and what comes behind that filter. -/
def bracedGroup (behind : List (Handler TextEvent Unit)) : List (Handler TextEvent Unit) :=
  [.group ⟨.literal ⟨"/\x7bx\x7d", .leading⟩, none⟩
    (.filter Predicate.any (fun ctx => .next (ctx.withEvent ⟨"/b"⟩) .done) :: behind)]

/-- Literal is not enough: under a literal with braces, handlers are under a template, and the
filter that was put in takes the parameter anew, from the path that the request has then. -/
theorem passing_filter_noticed_in_braced_group :
    Handler.Inserted
        (fun p => ∃ l : Pattern.Literal,
          p = .literal l ∧ Pattern.Literal.ofText l.text l.extent = .ok l)
        (.filter Predicate.any Plan.proceed) 0 [0, 1] (bracedGroup [])
        (bracedGroup [.filter Predicate.any Plan.proceed]) ∧
      Throughout (fun h _ => h.Oblivious Eq) (bracedGroup []) ∧
      ((Dispatcher.assembled (bracedGroup [])).toOption.map fun d =>
        (d.process Monitor.silent ⟨"/a"⟩ Attributes.empty ()).1.parameter? "x") =
          some (some "a") ∧
      ((Dispatcher.assembled
          (bracedGroup [.filter Predicate.any Plan.proceed])).toOption.map fun longer =>
        (longer.process Monitor.silent ⟨"/a"⟩ Attributes.empty ()).1.parameter? "x") =
          some (some "b") := by
  refine ⟨.inside [] ⟨_, rfl, rfl⟩ (.later _ (.here 1 [])), ?_, by decide +kernel,
    by decide +kernel⟩
  refine throughout_cons.mpr ⟨nofun, throughout_cons.mpr ⟨?_, throughout_nil, throughout_nil⟩,
    throughout_nil⟩
  exact Handler.oblivious_redirect _ _

/-! ### Under a panic -/

/-- A filter that runs the rest of its chain twice and panics, and a group under a literal
with what is inside it. -/
def panicAround (inside : List (Handler Http.Call Journal)) : List (Handler Http.Call Journal) :=
  [.filter Predicate.any fun ctx => .next ctx fun _ => .next ctx fun _ => .panic (.text "late"),
    .group ⟨.literal ⟨"/a", .leading⟩, none⟩ inside]

/-- A route that answers. -/
def answering : Handler Http.Call Journal :=
  .on Predicate.any fun ctx => .done (ctx.send (Http.Response.ok []))

/-- Journals that do not differ in what callbacks can see. -/
def Journal.SameLog (j other : Journal) : Prop := j.log = other.log ∧ j.count = other.count

theorem ignoresTrace_sameLog : IgnoresTrace Journal.SameLog where
  equivalence := ⟨fun _ => ⟨rfl, rfl⟩, fun h => ⟨h.1.symm, h.2.symm⟩,
    fun h h' => ⟨h.1.trans h'.1, h.2.trans h'.2⟩⟩
  traced _ htraces j := ⟨(htraces j).1.symm, (htraces j).2.symm⟩

theorem panicAround_oblivious :
    Throughout (fun h _ => h.Oblivious Journal.SameLog) (panicAround [answering]) := by
  refine throughout_cons.mpr ⟨?panics, throughout_nil, throughout_cons.mpr ⟨nofun,
    throughout_cons.mpr ⟨?answers, throughout_nil, throughout_nil⟩, throughout_nil⟩⟩
  case panics =>
    rintro _ ⟨⟩ R _ ctx other hctx
    exact .next hctx fun _ _ _ => .next hctx fun _ _ _ => .panic _
  case answers =>
    rintro _ ⟨⟩ R _ ctx other hctx
    refine .done { hctx with event := ?_, handled := rfl }
    exact congrArg (fun call => { call with response := some (Http.Response.ok []) }) hctx.event

/-- A request for the group. -/
def callBelow : Http.Call := { request := { method := .get, path := "/a" } }

/-- A filter in front of a route that is called twice changes nothing, and logging requests
does not change the answer to a panic. -/
theorem passing_filter_invisible_under_panic :
    (∃ d longer, Dispatcher.assembled (panicAround [answering]) = .ok d ∧
      Dispatcher.assembled (panicAround [.filter Predicate.any Plan.proceed, answering]) =
        .ok longer ∧
      (callsOf (d.notices Monitor.silent callBelow Attributes.empty {})).map Prod.fst =
        [[0, 0], [0, 1, 0], [0, 1, 0]] ∧
      (callsOf (longer.notices Monitor.silent callBelow Attributes.empty {})).map Prod.fst =
        [[0, 0], [0, 1, 0], [0, 1, 1], [0, 1, 0], [0, 1, 1], [0, 1, 0]] ∧
      d.AgreesBut [0, 1, 0] Monitor.silent longer) ∧
    ∃ r logged, Http.Router.assembled (panicAround [answering]) {} = .ok r ∧
      Http.Router.assembled (Handler.logging :: panicAround [answering]) {} = .ok logged ∧
      (logged.process .blocking callBelow.request Attributes.empty {}).1 =
        (r.process .blocking callBelow.request Attributes.empty {}).1 := by
  obtain ⟨_, hlists, hrouter⟩ := passing_filter_is_invisible
  have hliteral : Pattern.ReadsAsLiteral (.literal ⟨"/a", .leading⟩) := ⟨_, rfl, rfl⟩
  constructor
  · have hbuilt : Dispatcher.assembled (panicAround [answering]) = .ok _ := rfl
    have hlonger : Dispatcher.assembled
        (panicAround [.filter Predicate.any Plan.proceed, answering]) = .ok _ := rfl
    have hinserted : Handler.Inserted Pattern.ReadsAsLiteral (.filter Predicate.any Plan.proceed)
        0 [1, 0] (panicAround [answering])
        (panicAround [.filter Predicate.any Plan.proceed, answering]) :=
      .later _ (.inside [] hliteral (.here 0 _))
    obtain ⟨longer, hextended, hagrees⟩ := hlists ignoresTrace_sameLog.equivalence
      (fun _ _ => ⟨rfl, rfl⟩) hinserted panicAround_oblivious hbuilt
    rw [hlonger] at hextended
    cases hextended
    exact ⟨_, _, hbuilt, hlonger, rfl, rfl, hagrees⟩
  · have hbuilt : Http.Router.assembled (panicAround [answering]) {} = .ok _ := rfl
    obtain ⟨logged, hlogged, hsame⟩ := hrouter ignoresTrace_sameLog (.here 0 _)
      panicAround_oblivious hbuilt
    exact ⟨_, logged, hbuilt, hlogged, hsame _ _ _⟩

end RequestRouting
