import R4.ForStd.List
import R4.Native.ReportProcess

/-!
# Whether the totals count each race once

Every iteration of the loop over the races adds to the totals, or ends the process. A race that
could not be parsed is therefore counted as well, as the race before it, and a base that could not
be parsed ends everything.

## Key results

- `addRace_spec`: what a race adds to the summary
- `processRaces_cons`: what the first pass of the loop does
- `length_processRaces`: every iteration adds a row
- `countsEachOnce_iff`: when the totals count each race once
-/

namespace R4.ReportReader

open Python (Dict)

variable {D X : Type}

/-! ## The summary -/

/-- The counters are those of the summary. -/
theorem map_fst_counters (p : ProcessedRace D X) : (counters p).map Prod.fst = summaryKeys := by
  simp only [counters, summaryKeys, List.map_append, List.map_map, List.map_cons, List.map_nil]
  rfl

/-- Every counter starts with zero. -/
theorem get?_initialSummary {key : StdString} (h : key ∈ summaryKeys) :
    initialSummary.get? key = some 0 :=
  Dict.get?_eq_some_iff.mpr (List.mem_map_of_mem h)

/-- Each counter is increased once, if its condition holds. -/
theorem foldlM_increment {cs : List (StdString × Bool)} (hnodup : (cs.map Prod.fst).Nodup)
    (summary : Summary) (hkeys : ∀ c ∈ cs, (summary.get? c.1).isSome) :
    ∃ summary', cs.foldlM increment summary = some summary' ∧
      ∀ key, summary'.get? key =
        (summary.get? key).map fun n => n + if (key, true) ∈ cs then 1 else 0 := by
  induction cs generalizing summary with
  | nil =>
    refine ⟨summary, rfl, fun key => ?_⟩
    simp
  | cons c cs ih =>
    obtain ⟨hfresh, hnodup⟩ := List.nodup_cons.mp hnodup
    obtain ⟨n, hn⟩ := Option.isSome_iff_exists.mp (hkeys c List.mem_cons_self)
    obtain ⟨incremented, hincremented⟩ : ∃ incremented,
        incremented = summary.set c.1 (n + if c.2 then 1 else 0) := ⟨_, rfl⟩
    have hget : ∀ key, incremented.get? key =
        if key = c.1 then some (n + if c.2 then 1 else 0) else summary.get? key := fun key => by
      rw [hincremented, Dict.get?_set]
    obtain ⟨summary', hrun, hsummary'⟩ := ih hnodup incremented fun c' hc' => by
      rw [hget]
      split
      · rfl
      · exact hkeys c' (List.mem_cons_of_mem _ hc')
    refine ⟨summary', ?_, fun key => ?_⟩
    · rw [List.foldlM_cons, increment, hn, Option.map_some, ← hincremented]
      exact hrun
    · rw [hsummary', hget]
      by_cases hkey : key = c.1
      · -- the other counters have other keys
        subst hkey
        have hnot : (c.1, true) ∉ cs := fun hmem => hfresh (List.mem_map.mpr ⟨_, hmem, rfl⟩)
        obtain ⟨key, condition⟩ := c
        cases condition with
        | true => simp [hn, hnot]
        | false => simp [hn, hnot]
      · have hiff : (key, true) ∈ c :: cs ↔ (key, true) ∈ cs := by
          rw [List.mem_cons, or_iff_right]
          rintro rfl
          exact hkey rfl
        rw [if_neg hkey]
        simp only [hiff]

/-- What a race adds to the summary. -/
theorem addRace_spec (summary : Summary) (hkeys : ∀ key ∈ summaryKeys, (summary.get? key).isSome)
    (p : ProcessedRace D X) :
    ∃ summary', addRace summary p = some summary' ∧
      ∀ key, summary'.get? key =
        (summary.get? key).map fun n => n + if (key, true) ∈ counters p then 1 else 0 := by
  refine foldlM_increment ((map_fst_counters p).symm ▸ nodup_summaryKeys) summary fun c hc => ?_
  refine hkeys c.1 ?_
  rw [← map_fst_counters p]
  exact List.mem_map_of_mem hc

/-! ## The races -/

/-- The race and its base, if both are parsed. -/
def parsedRace (w : Website D X) (race : StdString) : Option (RaceData D × RaceData D) :=
  match parseRace w race with
  | .error _ => none
  | .ok raceData =>
    match parseOrigin w raceData.origin with
    | .error _ => none
    | .ok baseData => some (raceData, baseData)

/-- The race is parsed, and so is its base, and they can be compared. -/
def Reported (w : Website D X) (race : StdString) : Prop :=
  ∃ raceData baseData p, parseRace w race = .ok raceData ∧
    parseOrigin w raceData.origin = .ok baseData ∧ processRace w raceData baseData = some p

/-- The totals have one entry for each race that is parsed and whose base is parsed, under its own
    handle, and no other. -/
def CountsEachOnce (w : Website D X) (races : List StdString) : Prop :=
  ∃ summary rows praces,
    process w races = some (summary, rows) ∧
    (races.filterMap (parsedRace w)).mapM (fun p => processRace w p.1 p.2) = some praces ∧
    rows = praces.map ProcessedRace.summary ∧
    rows.map RaceSummary.handle = races.filter (fun race => (parsedRace w race).isSome) ∧
    ∀ key ∈ summaryKeys, summary.get? key =
      some (praces.countP fun p => (key, true) ∈ counters p)

/-- A race is parsed if it and its origin are. -/
theorem parsedRace_eq_some_iff {w : Website D X} {race : StdString}
    {raceData baseData : RaceData D} :
    parsedRace w race = some (raceData, baseData) ↔
      parseRace w race = .ok raceData ∧ parseOrigin w raceData.origin = .ok baseData := by
  unfold parsedRace
  cases parseRace w race with
  | error e => simp
  | ok raceData' =>
    dsimp only
    cases hbase : parseOrigin w raceData'.origin with
    | error e =>
      -- the origin could not be parsed
      refine iff_of_false (by simp) ?_
      rintro ⟨hrace, hok⟩
      obtain rfl := Except.ok.inj hrace
      exact nomatch hbase.symm.trans hok
    | ok baseData' =>
      -- both could be parsed
      simp only [Option.some.injEq, Prod.mk.injEq, Except.ok.injEq]
      refine and_congr_right fun h => ?_
      rw [← h, hbase, Except.ok.injEq]

/-- A race is parsed under its own handle. -/
theorem handle_of_parseRace {w : Website D X} {race : StdString} {raceData : RaceData D}
    (h : parseRace w race = .ok raceData) : raceData.handle = race := by
  unfold parseRace at h
  cases hfiles : w.files race with
  | error e =>
    rw [hfiles] at h
    exact nomatch h
  | ok files =>
    rw [hfiles] at h
    obtain rfl := Except.ok.inj h
    rfl

/-- And it keeps it. -/
theorem handle_of_processRace {w : Website D X} {raceData baseData : RaceData D}
    {p : ProcessedRace D X} (h : processRace w raceData baseData = some p) :
    p.summary.handle = raceData.handle := by
  obtain ⟨comparison, -, rfl⟩ := Option.map_eq_some_iff.mp h
  rfl

/-! ## The loop -/

/-- An iteration adds a row. -/
theorem length_reportRace {w : Website D X} {raceData : RaceData D} {totals totals' : Totals X}
    (h : reportRace w raceData totals = some totals') :
    totals'.2.length = totals.2.length + 1 := by
  unfold reportRace at h
  split at h
  · exact nomatch h
  · simp only [Option.bind_eq_bind, Option.bind_eq_some_iff, Option.pure_def,
      Option.some.injEq] at h
    obtain ⟨prace, -, summary, -, rfl⟩ := h
    rw [List.length_append, List.length_singleton]

/-- The race that a pass of the loop compares: its own, or, if that cannot be parsed, again the one
    of the pass before. -/
def PassRace (w : Website D X) (last : Option (RaceData D)) (race : StdString)
    (raceData : RaceData D) : Prop :=
  parseRace w race = .ok raceData ∨
    parseRace w race = .error .raceParseException ∧ last = some raceData

/-- A loop that ends has finished its first pass, and then the others with what that added. -/
theorem processRaces_cons {w : Website D X} {race : StdString} {races : List StdString}
    {last : Option (RaceData D)} {totals totals' : Totals X}
    (h : processRaces w (race :: races) last totals = some totals') :
    ∃ raceData added, PassRace w last race raceData ∧
      reportRace w raceData totals = some added ∧
      processRaces w races (some raceData) added = some totals' := by
  rw [processRaces] at h
  split at h
  · rename_i raceData hrace
    obtain ⟨added, hadded, hrest⟩ := Option.bind_eq_some_iff.mp h
    exact ⟨raceData, added, .inl hrace, hadded, hrest⟩
  -- the handler lacks a `continue`
  · rename_i hrace
    obtain ⟨raceData, hlast, hrun⟩ := Option.bind_eq_some_iff.mp h
    obtain ⟨added, hadded, hrest⟩ := Option.bind_eq_some_iff.mp hrun
    exact ⟨raceData, added, .inr ⟨hrace, hlast⟩, hadded, hrest⟩
  · exact nomatch h

/-- Every iteration adds a row, whether the race was parsed or not. -/
theorem length_processRaces {w : Website D X} {races : List StdString}
    {last : Option (RaceData D)} {totals totals' : Totals X}
    (h : processRaces w races last totals = some totals') :
    totals'.2.length = totals.2.length + races.length := by
  induction races generalizing last totals with
  | nil =>
    obtain rfl := Option.some.inj h
    rfl
  | cons race races ih =>
    obtain ⟨raceData, added, -, hadded, hrest⟩ := processRaces_cons h
    rw [ih hrest, length_reportRace hadded, List.length_cons]
    omega

/-- If every race is reported, the loop adds what it should. -/
theorem processRaces_of_reported {w : Website D X} {races : List StdString}
    (h : ∀ race ∈ races, Reported w race) (last : Option (RaceData D)) (summary : Summary)
    (hkeys : ∀ key ∈ summaryKeys, (summary.get? key).isSome) (rows : List (RaceSummary X)) :
    ∃ summary' praces,
      processRaces w races last (summary, rows) =
        some (summary', rows ++ praces.map ProcessedRace.summary) ∧
      (races.filterMap (parsedRace w)).mapM (fun p => processRace w p.1 p.2) = some praces ∧
      (praces.map ProcessedRace.summary).map RaceSummary.handle = races ∧
      ∀ key, summary'.get? key = (summary.get? key).map fun n =>
        n + praces.countP fun p => (key, true) ∈ counters p := by
  induction races generalizing last summary rows with
  | nil => exact ⟨summary, [], by simp [processRaces], rfl, rfl, by simp⟩
  | cons race races ih =>
    -- the race is parsed and processed
    obtain ⟨raceData, baseData, p, hrace, hbase, hprocess⟩ := h race List.mem_cons_self
    obtain ⟨added, hadded, hget⟩ := addRace_spec summary hkeys p
    -- its row is appended
    have hreport : reportRace w raceData (summary, rows) = some (added, rows ++ [p.summary]) := by
      simp only [reportRace, hbase, hprocess, hadded, Option.bind_eq_bind, Option.bind_some,
        Option.pure_def]
    -- the loop goes on with its data
    obtain ⟨summary', praces, hrun, hpraces, hhandles, hsummary'⟩ :=
      ih (fun race hrace => h race (List.mem_cons_of_mem _ hrace)) (some raceData) added
        (fun key hkey => by
          rw [hget, Option.isSome_map]
          exact hkeys key hkey) (rows ++ [p.summary])
    refine ⟨summary', p :: praces, ?_, ?_, ?_, fun key => ?_⟩
    · rw [processRaces, hrace]
      dsimp only
      rw [hreport, Option.bind_some, hrun, List.map_cons, List.append_assoc,
        List.singleton_append]
    · rw [List.filterMap_cons_some (parsedRace_eq_some_iff.mpr ⟨hrace, hbase⟩), List.mapM_cons,
        hprocess, hpraces]
      rfl
    · rw [List.map_cons, List.map_cons, hhandles, handle_of_processRace hprocess,
        handle_of_parseRace hrace]
    · -- its counters are increased
      rw [hsummary', hget, Option.map_map, List.countP_cons]
      refine congrArg (fun f => Option.map f (summary.get? key)) (funext fun n => ?_)
      simp only [Function.comp_apply, decide_eq_true_eq]
      omega

/-- The totals count each race once if every race is parsed and its base is, and they are compared
    without an exception, and only then. -/
theorem countsEachOnce_iff (w : Website D X) (races : List StdString) :
    CountsEachOnce w races ↔ ∀ race ∈ races, Reported w race := by
  constructor
  · rintro ⟨summary, rows, praces, hrun, hpraces, hrows, -, -⟩ race hrace
    -- as many races are parsed as there are iterations
    have hlength : (races.filterMap (parsedRace w)).length = races.length := by
      have hiterations := length_processRaces hrun
      rw [← List.length_of_mapM hpraces, ← List.length_map ProcessedRace.summary, ← hrows]
      simpa using hiterations
    obtain ⟨⟨raceData, baseData⟩, hparsed⟩ :=
      Option.isSome_iff_exists.mp (List.filterMap_length_eq_length.mp hlength race hrace)
    obtain ⟨hok, hbase⟩ := parsedRace_eq_some_iff.mp hparsed
    obtain ⟨p, hp⟩ := List.exists_of_mapM hpraces (List.mem_filterMap.mpr ⟨race, hrace, hparsed⟩)
    exact ⟨raceData, baseData, p, hok, hbase, hp⟩
  · intro h
    obtain ⟨summary, praces, hrun, hpraces, hhandles, hget⟩ :=
      processRaces_of_reported h none initialSummary
        (fun key hkey => by rw [get?_initialSummary hkey]; rfl) []
    refine ⟨summary, praces.map ProcessedRace.summary, praces, hrun, hpraces, rfl, ?_, ?_⟩
    · rw [hhandles]
      refine (List.filter_eq_self.mpr fun race hrace => ?_).symm
      obtain ⟨raceData, baseData, p, hrace, hbase, -⟩ := h race hrace
      rw [parsedRace_eq_some_iff.mpr ⟨hrace, hbase⟩]
      rfl
    · intro key hkey
      rw [hget, get?_initialSummary hkey, Option.map_some, Nat.zero_add]

/-- A website with one race that can be parsed, and its base. -/
def oneRace : Website Unit Unit where
  files handle :=
    if handle = "base".toList then .ok (none, "FINISHED".toList, ())
    else if handle = "race1".toList then .ok (some "base".toList, "FINISHED".toList, ())
    else .error .raceParseException
  erClassification _ := ("LOW".toList, [])
  compareRace _ _ := some ⟨true, "LOW".toList, [], ()⟩

/-- A race behind it that cannot be parsed is counted as a second one of it. -/
theorem race_counted_twice :
    (process oneRace ["race1".toList, "race2".toList]).map
        (fun totals => (totals.1.get? "count".toList, totals.2.map RaceSummary.handle)) =
      some (some 2, ["race1".toList, "race1".toList]) ∧
    ¬ CountsEachOnce oneRace ["race1".toList, "race2".toList] := by
  have hrun : (process oneRace ["race1".toList, "race2".toList]).map
      (fun totals => (totals.1.get? "count".toList, totals.2.map RaceSummary.handle)) =
      some (some 2, ["race1".toList, "race1".toList]) := by decide +kernel
  refine ⟨hrun, ?_⟩
  rintro ⟨summary, rows, praces, hprocess, -, -, hhandles, -⟩
  rw [hprocess, Option.map_some, Option.some.injEq, Prod.mk.injEq, hhandles] at hrun
  exact absurd hrun.2 (by decide +kernel)

end R4.ReportReader
