import Mathlib.Data.List.Dedup
import RequestRouting.Client.Settings

/-!
# Defaults of a client

What a request says wins over the settings of a client, and of the settings those of a name of its
own win over the general ones (`ClientSettings.getAll_applyHeaders`). The headers are completed one
name after the other, while what they have already decides what is passed over; a name that is not
the one in question is not touched by any step, so the outcome for a name can be read off by itself.
Since all that the settings can add is there afterwards, they add nothing a second time
(`ClientSettings.applyHeaders_applyHeaders`).
-/

namespace RequestRouting.Http

namespace Headers

variable {h : Headers} {name : HeaderName}

theorem contains_iff : h.contains name = true ↔ h.getAll name ≠ [] := by
  simp [contains_eq]

theorem insertAbsent_of_contains {value : HeaderValue} (hname : h.contains name = true) :
    h.insertAbsent name value = h := if_pos hname

theorem mem_names_iff : name ∈ h.names ↔ h.contains name = true := by
  simp [names, contains, List.mem_eraseDups, List.any_eq_true]

/-- Values are added in order. -/
theorem getAll_foldl_append (h : Headers) (other : HeaderName) (values : List HeaderValue)
    (name : HeaderName) :
    (values.foldl (fun h value => h.append other value) h).getAll name =
      if other = name then h.getAll name ++ values else h.getAll name := by
  induction values generalizing h with
  | nil => simp
  | cons value values ih =>
      rw [List.foldl_cons, ih, getAll_append]
      split <;> simp

end Headers

namespace ClientSettings

variable (s : ClientSettings) (h : Headers) (name other : HeaderName)

/-- The setting that is for one name only. -/
def own? (s : ClientSettings) (name : HeaderName) : Option HeaderValue :=
  if name = .contentType then s.contentType
  else if name = .accept then s.accept
  else if name = .authorization then s.authorization
  else none

/-- What a client gives to a name that a request does not have. -/
def defaults (s : ClientSettings) (name : HeaderName) : List HeaderValue :=
  match s.own? name with
  | some value => [value]
  | none => s.headers.getAll name

/-! ## One step -/

theorem getAll_complete (value : Option HeaderValue) :
    (complete h other value).getAll name =
      if other = name ∧ h.getAll name = [] then value.toList else h.getAll name := by
  unfold complete Headers.insertAbsent
  grind [Headers.getAll_append, Headers.contains_iff]

theorem getAll_completeAll :
    (s.completeAll h other).getAll name =
      if other = name ∧ h.getAll name = [] then s.headers.getAll name else h.getAll name := by
  unfold completeAll
  split
  · rename_i hother
    have hnot : ¬(other = name ∧ h.getAll name = []) := by
      rintro ⟨rfl, hnone⟩
      exact Headers.contains_iff.mp hother hnone
    rw [if_neg hnot]
  · rename_i hother
    rw [Headers.getAll_foldl_append]
    by_cases hname : other = name
    · subst hname
      have hnone : h.getAll other = [] := by simpa [Headers.contains_iff] using hother
      simp [hnone]
    · simp [hname]

/-! ## All steps -/

theorem getAll_foldl_completeAll (names : List HeaderName) :
    (names.foldl s.completeAll h).getAll name =
      if name ∈ names ∧ h.getAll name = [] then s.headers.getAll name else h.getAll name := by
  induction names generalizing h with
  | nil => simp
  | cons other names ih =>
      rw [List.foldl_cons, ih, getAll_completeAll]
      grind

/-- What a request says of a name wins; of the defaults, the one that is for the name only. -/
theorem getAll_applyHeaders :
    (s.applyHeaders h).getAll name =
      if h.getAll name = [] then s.defaults name else h.getAll name := by
  have hgeneral : name ∉ s.headers.names → s.headers.getAll name = [] := by
    simp [Headers.mem_names_iff, Headers.contains_iff]
  have hown : (complete (complete (complete h .contentType s.contentType) .accept s.accept)
      .authorization s.authorization).getAll name =
      if h.getAll name = [] then (s.own? name).toList else h.getAll name := by
    have hapart : HeaderName.contentType ≠ .accept ∧ HeaderName.contentType ≠ .authorization ∧
        HeaderName.accept ≠ .authorization := by decide
    rw [getAll_complete, getAll_complete, getAll_complete]
    unfold own?
    grind
  unfold applyHeaders
  rw [getAll_foldl_completeAll, hown]
  unfold defaults
  cases hvalue : s.own? name with
  | some value => split <;> simp_all
  | none =>
      by_cases hnone : h.getAll name = []
      · simpa [hnone] using fun hmissing => (hgeneral hmissing).symm
      · simp [hnone]

variable {h name} in
/-- Settings leave alone what a request has. -/
theorem getAll_applyHeaders_of_contains (hname : h.contains name = true) :
    (s.applyHeaders h).getAll name = h.getAll name := by
  rw [getAll_applyHeaders, if_neg (Headers.contains_iff.mp hname)]

/-! ## A second time -/

variable {h} in
theorem complete_of_contains {value : Option HeaderValue} {name : HeaderName}
    (hname : value.isSome → h.contains name = true) : complete h name value = h := by
  cases value with
  | none => rfl
  | some value => exact Headers.insertAbsent_of_contains (hname rfl)

variable {s h} in
/-- Headers that have all that there are settings for are left as they are. -/
theorem applyHeaders_of_contains (hown : ∀ name, (s.own? name).isSome → h.contains name = true)
    (hgeneral : ∀ name ∈ s.headers.names, h.contains name = true) : s.applyHeaders h = h := by
  have hall (names : List HeaderName) (hnames : ∀ name ∈ names, h.contains name = true) :
      names.foldl s.completeAll h = h := by
    induction names with
    | nil => rfl
    | cons name names ih =>
        rw [List.foldl_cons, completeAll, if_pos (hnames name List.mem_cons_self)]
        exact ih fun later hlater => hnames later (.tail _ hlater)
  have hcontentType : complete h .contentType s.contentType = h :=
    complete_of_contains (hown .contentType)
  have haccept : complete h .accept s.accept = h := complete_of_contains (hown .accept)
  have hauthorization : complete h .authorization s.authorization = h :=
    complete_of_contains (hown .authorization)
  unfold applyHeaders
  dsimp only
  rw [hcontentType, haccept, hauthorization, hall _ hgeneral]

/-- Settings have nothing to add to headers that they have been applied to. -/
theorem applyHeaders_applyHeaders : s.applyHeaders (s.applyHeaders h) = s.applyHeaders h := by
  have hadded {name : HeaderName} (hdefaults : s.defaults name ≠ []) :
      (s.applyHeaders h).contains name = true := by
    rw [Headers.contains_iff, getAll_applyHeaders]
    split <;> assumption
  apply applyHeaders_of_contains
  · intro name hown
    obtain ⟨value, hvalue⟩ := Option.isSome_iff_exists.mp hown
    exact hadded (by simp [defaults, hvalue])
  · intro name hname
    apply hadded
    unfold defaults
    cases s.own? name with
    | some value => exact List.cons_ne_nil _ _
    | none => exact Headers.contains_iff.mp (Headers.mem_names_iff.mp hname)

/-! ## Requests -/

/-- A client completes a request and overrides nothing of it. A name keeps the values that the
request gives to it, in order; without any it gets the setting that is for it only, and if there is
none the general values in the order in which they were added. The path gets the base in front of
it. Without a base, a second time changes nothing more. -/
theorem request_wins_over_defaults (s : ClientSettings) (r : Request) :
    (∀ name, (s.apply r).headers.getAll name =
      if r.headers.getAll name ≠ [] then r.headers.getAll name
      else
        match s.own? name with
        | some value => [value]
        | none => s.headers.getAll name) ∧
      (s.apply r).path = s.basePath ++ r.path ∧ (s.apply r).method = r.method ∧
      (s.apply r).query = r.query ∧ (s.apply r).body = r.body ∧
      (s.basePath = "" → s.apply (s.apply r) = s.apply r) := by
  refine ⟨fun name => ?_, rfl, rfl, rfl, rfl, fun hbase => ?_⟩
  · rw [ite_not]
    exact s.getAll_applyHeaders r.headers name
  · have hpath (path : String) : s.basePath ++ path = path := by rw [hbase, String.empty_append]
    unfold apply Request.withPath Request.mapHeaders
    simp only [hpath, applyHeaders_applyHeaders]

/-- The value of a text, if there is one. -/
def valueOf (text : String) : HeaderValue :=
  (HeaderValue.ofBytes? (Utf8.encode text)).getD .plainText

/-- Settings with values of their own for `accept` and `content-type`, and with general values,
which are for `accept` as well, for a name that a request has, and twice for the same name. -/
def overlapping : ClientSettings where
  headers := ⟨[(.requestId, valueOf "1"), (.accept, valueOf "*/*"), (.requestId, valueOf "2"),
    (.cookie, valueOf "n=0")]⟩
  contentType := some (valueOf "text/css")
  accept := some (valueOf "text/html")

/-- A request with two cookie headers and a `content-type`. -/
def twoCookies : Request where
  method := .get
  path := "/"
  headers := ⟨[(.cookie, valueOf "n=1"), (.contentType, valueOf "a/b"), (.cookie, valueOf "n=2")]⟩

/-- The cookies and the `content-type` are those of the request, `accept` is the setting of its own,
and the other name gets both general values. -/
theorem twoCookies_win_over_overlapping :
    overlapping.basePath = "" ∧ overlapping.apply (overlapping.apply twoCookies) =
        overlapping.apply twoCookies ∧
      (overlapping.apply twoCookies).headers.getAll .cookie = [valueOf "n=1", valueOf "n=2"] ∧
      (overlapping.apply twoCookies).headers.getAll .contentType = [valueOf "a/b"] ∧
      (overlapping.apply twoCookies).headers.getAll .accept = [valueOf "text/html"] ∧
      (overlapping.apply twoCookies).headers.getAll .requestId = [valueOf "1", valueOf "2"] := by
  obtain ⟨hheaders, _, _, _, _, hagain⟩ := request_wins_over_defaults overlapping twoCookies
  refine ⟨rfl, hagain rfl, ?_⟩
  rw [hheaders, hheaders, hheaders, hheaders]
  decide +kernel

end ClientSettings

end RequestRouting.Http
