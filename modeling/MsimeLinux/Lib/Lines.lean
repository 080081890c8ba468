import Mathlib.Tactic.Common

/-!
# Reading a stream line by line

A `Source` is a stream as its reads deliver it: a list of nonempty chunks, of
any sizes. `Source.getline` takes one line of at most `limit` symbols out of it,
and `Source.foldLines` is the loop around that call.

- `splitLines` is what the loop sees of the stream as a whole: its lines, each
  with whether a delimiter ended it.
- `Source.foldLines_eq`: the loop is a fold over `splitLines` of the symbols, so
  where one chunk ends and the next begins never matters.
- `splitLines_eq_iff`: the lines of a stream are the ones that make it up, the
  last delimiter being optional.
-/

namespace Lib

universe u v

variable {α : Type u}

/-- A stream, in the chunks its reads return. -/
abbrev Source (α : Type u) := List {chunk : List α // chunk ≠ []}

/-- The symbols of a stream. -/
def Source.symbols (s : Source α) : List α := s.flatMap (·.1)

/-- A stream that delivers everything at once. -/
def Source.ofSymbols (symbols : List α) : Source α :=
  match symbols with
  | [] => []
  | a :: rest => [⟨a :: rest, List.cons_ne_nil _ _⟩]

@[simp]
theorem Source.symbols_ofSymbols (symbols : List α) : (ofSymbols symbols).symbols = symbols := by
  cases symbols <;> simp [ofSymbols, Source.symbols]

/-- Take one symbol. -/
def Source.next : Source α → Option (α × Source α)
  | [] => none
  | ⟨[a], _⟩ :: rest => some (a, rest)
  | ⟨a :: b :: chunk, _⟩ :: rest => some (a, ⟨b :: chunk, List.cons_ne_nil _ _⟩ :: rest)

theorem Source.next_eq_none {s : Source α} (h : s.next = none) : s.symbols = [] := by
  match s with
  | [] => rfl
  | ⟨[_], _⟩ :: _ => simp [Source.next] at h
  | ⟨_ :: _ :: _, _⟩ :: _ => simp [Source.next] at h

theorem Source.next_eq_some {s t : Source α} {a : α} (h : s.next = some (a, t)) :
    s.symbols = a :: t.symbols := by
  match s with
  | [] => simp [Source.next] at h
  | ⟨[b], _⟩ :: rest =>
    obtain ⟨rfl, rfl⟩ : b = a ∧ rest = t := by simpa [Source.next] using h
    simp [Source.symbols]
  | ⟨b :: c :: chunk, _⟩ :: rest =>
    obtain ⟨rfl, rfl⟩ := by simpa [Source.next] using h
    simp [Source.symbols]

/-- What reading a line found. -/
inductive LineRead (α : Type u) where
  /-- the line, and the delimiter behind it -/
  | ended (line : List α)
  /-- what was left before the end of the stream -/
  | last (line : List α)
  /-- `limit` symbols without a delimiter, and more to come -/
  | full
  deriving DecidableEq, Repr

/-- One more symbol in front. -/
def LineRead.cons (a : α) : LineRead α → LineRead α
  | .ended line => .ended (a :: line)
  | .last line => .last (a :: line)
  | .full => .full

variable [DecidableEq α] (delim : α)

/-- Read up to the next delimiter, which is taken but not returned, storing at
most `limit` symbols. -/
def Source.getline : Nat → Source α → LineRead α × Source α
  | limit, s =>
    match s.next with
    | none => (.last [], s)
    | some (a, t) =>
      if a = delim then (.ended [], t)
      else
        match limit with
        | 0 => (.full, t)
        | limit + 1 => ((Source.getline limit t).1.cons a, (Source.getline limit t).2)

/-- What a line read says about the symbols of the stream. -/
def LineRead.Describes (limit : Nat) (symbols rest : List α) : LineRead α → Prop
  | .ended line => symbols = line ++ delim :: rest ∧ delim ∉ line ∧ line.length ≤ limit
  | .last line => symbols = line ∧ rest = [] ∧ delim ∉ line ∧ line.length ≤ limit
  | .full => ∃ line, symbols = line ++ rest ∧ delim ∉ line ∧ limit < line.length

theorem Source.getline_describes (limit : Nat) (s : Source α) :
    (s.getline delim limit).1.Describes delim limit s.symbols
      (s.getline delim limit).2.symbols := by
  induction limit generalizing s with
  | zero =>
    unfold Source.getline
    cases hnext : s.next with
    | none =>
      have hnil := Source.next_eq_none hnext
      simp [LineRead.Describes, hnil]
    | some r =>
      obtain ⟨a, t⟩ := r
      rw [Source.next_eq_some hnext]
      by_cases ha : a = delim
      · simp [LineRead.Describes, ha]
      · simp only [ha, if_false]
        -- no room left, and yet a symbol: the line is too long
        exact ⟨[a], rfl, by simpa using Ne.symm ha, Nat.zero_lt_one⟩
  | succ limit ih =>
    unfold Source.getline
    cases hnext : s.next with
    | none =>
      have hnil := Source.next_eq_none hnext
      simp [LineRead.Describes, hnil]
    | some r =>
      obtain ⟨a, t⟩ := r
      rw [Source.next_eq_some hnext]
      by_cases ha : a = delim
      · simp [LineRead.Describes, ha]
      · simp only [ha, if_false]
        -- the symbol is put before whatever the rest of the line is
        have ht := ih t
        cases hread : (t.getline delim limit).1 with
        | ended line =>
          rw [hread] at ht
          obtain ⟨hsym, hdelim, hlen⟩ := ht
          exact ⟨by rw [hsym]; rfl, by simp [Ne.symm ha, hdelim], by simpa using hlen⟩
        | last line =>
          rw [hread] at ht
          obtain ⟨hsym, hrest, hdelim, hlen⟩ := ht
          exact ⟨by rw [hsym], hrest, by simp [Ne.symm ha, hdelim], by simpa using hlen⟩
        | full =>
          rw [hread] at ht
          obtain ⟨line, hsym, hdelim, hlen⟩ := ht
          exact ⟨a :: line, by rw [hsym]; rfl, by simp [Ne.symm ha, hdelim], by simpa using hlen⟩

/-! ## The lines of a stream -/

/-- The lines of a list of symbols, and whether a delimiter ended each. -/
def splitLines : List α → List (List α × Bool)
  | [] => []
  | a :: rest =>
    if a = delim then ([], true) :: splitLines rest
    else
      match splitLines rest with
      | [] => [([a], false)]
      | (line, ended) :: lines => (a :: line, ended) :: lines

theorem splitLines_ended {line rest : List α} (h : delim ∉ line) :
    splitLines delim (line ++ delim :: rest) = (line, true) :: splitLines delim rest := by
  induction line with
  | nil => simp [splitLines]
  | cons a line ih =>
    rw [List.mem_cons, not_or] at h
    rw [List.cons_append, splitLines, if_neg (Ne.symm h.1), ih h.2]

theorem splitLines_last {line : List α} (h : delim ∉ line) (hne : line ≠ []) :
    splitLines delim line = [(line, false)] := by
  induction line with
  | nil => exact absurd rfl hne
  | cons a line ih =>
    rw [List.mem_cons, not_or] at h
    rw [splitLines, if_neg (Ne.symm h.1)]
    cases line with
    | nil => rfl
    | cons b line => rw [ih h.2 (List.cons_ne_nil _ _)]

/-- Lines put together again, each followed by a delimiter. -/
def unlines (lines : List (List α)) : List α := lines.flatMap fun line => line ++ [delim]

theorem splitLines_unlines {lines : List (List α)} (h : ∀ line ∈ lines, delim ∉ line)
    (rest : List α) :
    splitLines delim (unlines delim lines ++ rest) =
      lines.map (fun line => (line, true)) ++ splitLines delim rest := by
  induction lines with
  | nil => rfl
  | cons line lines ih =>
    have hrest := ih fun l hl => h l (List.mem_cons_of_mem _ hl)
    have hhead : splitLines delim (line ++ delim :: (unlines delim lines ++ rest)) = _ :=
      splitLines_ended delim (h line List.mem_cons_self)
    rw [hrest] at hhead
    simpa [unlines] using hhead

/-- `symbols` is made of `lines`; the delimiter behind the last one may be
missing. -/
def Framed (lines : List (List α)) (symbols : List α) : Prop :=
  symbols = unlines delim lines ∨ symbols ++ [delim] = unlines delim lines

omit [DecidableEq α] in
theorem unlines_append (lines lines' : List (List α)) :
    unlines delim (lines ++ lines') = unlines delim lines ++ unlines delim lines' :=
  List.flatMap_append

omit [DecidableEq α] in
theorem unlines_cons (line : List α) (lines : List (List α)) :
    unlines delim (line :: lines) = line ++ delim :: unlines delim lines := by
  simp [unlines]

/-- Every line but the last was ended by a delimiter, and together they are the
symbols. -/
theorem splitLines_framed (symbols : List α) :
    Framed delim ((splitLines delim symbols).map Prod.fst) symbols := by
  induction symbols with
  | nil => exact .inl rfl
  | cons a rest ih =>
    unfold splitLines
    by_cases ha : a = delim
    · subst ha
      rw [if_pos rfl, List.map_cons]
      rcases ih with ih | ih
      · exact .inl (by rw [unlines_cons, ← ih]; rfl)
      · exact .inr (by rw [unlines_cons, ← ih]; rfl)
    · rw [if_neg ha]
      cases hsplit : splitLines delim rest with
      | nil =>
        rw [hsplit] at ih
        obtain rfl : rest = [] := by
          rcases ih with ih | ih
          · exact ih
          · simp [unlines] at ih
        exact .inr rfl
      | cons l lines =>
        rw [hsplit, List.map_cons] at ih
        simp only [List.map_cons]
        rcases ih with ih | ih
        · exact .inl (by rw [unlines_cons] at ih ⊢; rw [ih]; rfl)
        · refine .inr ?_
          rw [unlines_cons] at ih ⊢
          rw [List.cons_append, ih]
          rfl

/-- No line contains the delimiter. -/
theorem splitLines_not_mem {symbols line : List α} {ended : Bool}
    (h : (line, ended) ∈ splitLines delim symbols) : delim ∉ line := by
  induction symbols generalizing line ended with
  | nil => simp [splitLines] at h
  | cons a rest ih =>
    unfold splitLines at h
    by_cases ha : a = delim
    · rw [if_pos ha] at h
      rcases List.mem_cons.mp h with h | h
      · simp [(Prod.mk.inj h).1]
      · exact ih h
    · rw [if_neg ha] at h
      cases hsplit : splitLines delim rest with
      | nil =>
        obtain ⟨rfl, rfl⟩ : line = [a] ∧ ended = false := by simpa [hsplit] using h
        simpa using Ne.symm ha
      | cons l lines =>
        rw [hsplit] at h ih
        rcases List.mem_cons.mp h with h | h
        · obtain ⟨rfl, rfl⟩ := Prod.mk.inj h
          have : delim ∉ l.1 := ih List.mem_cons_self
          simp [Ne.symm ha, this]
        · exact ih (List.mem_cons_of_mem _ h)

/-- A line without a delimiter behind it is not empty. -/
theorem splitLines_last_ne_nil {symbols line : List α}
    (h : (line, false) ∈ splitLines delim symbols) : line ≠ [] := by
  induction symbols generalizing line with
  | nil => simp [splitLines] at h
  | cons a rest ih =>
    unfold splitLines at h
    by_cases ha : a = delim
    · rw [if_pos ha] at h
      rcases List.mem_cons.mp h with h | h
      · simp at h
      · exact ih h
    · rw [if_neg ha] at h
      cases hsplit : splitLines delim rest with
      | nil =>
        obtain rfl : line = [a] := by simpa [hsplit] using h
        exact List.cons_ne_nil _ _
      | cons l lines =>
        rw [hsplit] at h ih
        rcases List.mem_cons.mp h with h | h
        · rw [(Prod.mk.inj h).1]
          exact List.cons_ne_nil _ _
        · exact ih (List.mem_cons_of_mem _ h)

/-- **The lines of a stream** are the nonempty lines it is made of. -/
theorem splitLines_eq_iff {lines : List (List α)} {symbols : List α}
    (hne : ∀ line ∈ lines, line ≠ []) :
    (splitLines delim symbols).map Prod.fst = lines ↔
      (∀ line ∈ lines, delim ∉ line) ∧ Framed delim lines symbols := by
  constructor
  · rintro rfl
    refine ⟨fun line hline => ?_, splitLines_framed delim symbols⟩
    obtain ⟨⟨l, ended⟩, hmem, rfl⟩ := List.mem_map.mp hline
    exact splitLines_not_mem delim hmem
  · rintro ⟨hdelim, hframed | hframed⟩
    · have := splitLines_unlines delim hdelim []
      rw [List.append_nil] at this
      rw [hframed, this]
      simp [splitLines, Function.comp_def]
    · rcases List.eq_nil_or_concat lines with rfl | ⟨init, last, rfl⟩
      · simp [unlines] at hframed
      · rw [List.concat_eq_append] at *
        have hlast : last ≠ [] ∧ delim ∉ last :=
          ⟨hne last (by simp), hdelim last (by simp)⟩
        have hsymbols : symbols = unlines delim init ++ last := by
          rw [unlines_append] at hframed
          exact List.append_cancel_right (hframed.trans (by simp [unlines]))
        rw [hsymbols, splitLines_unlines delim fun l hl => hdelim l (by simp [hl]),
          splitLines_last delim hlast.2 hlast.1]
        simp [Function.comp_def]

/-- A stream that begins without a delimiter begins with a line that long. -/
theorem splitLines_prefix {line : List α} (rest : List α) (h : delim ∉ line) (hne : line ≠ []) :
    ∃ more ended lines,
      splitLines delim (line ++ rest) = (line ++ more, ended) :: lines := by
  induction line with
  | nil => exact absurd rfl hne
  | cons a line ih =>
    rw [List.mem_cons, not_or] at h
    rw [List.cons_append, splitLines, if_neg (Ne.symm h.1)]
    cases line with
    | nil =>
      cases splitLines delim ([] ++ rest) with
      | nil => exact ⟨[], false, [], rfl⟩
      | cons l lines => exact ⟨l.1, l.2, lines, rfl⟩
    | cons b line =>
      obtain ⟨more, ended, lines, hsplit⟩ := ih h.2 (List.cons_ne_nil _ _)
      rw [hsplit]
      exact ⟨more, ended, lines, rfl⟩

/-- What `getline` makes of the first of the stream's lines. -/
def LineRead.ofLine (limit : Nat) (line : List α × Bool) : LineRead α :=
  if limit < line.1.length then .full else if line.2 then .ended line.1 else .last line.1

theorem Source.getline_nil {s : Source α} (limit : Nat)
    (h : splitLines delim s.symbols = []) : (s.getline delim limit).1 = .last [] := by
  have hnil : s.symbols = [] := by
    cases hsym : s.symbols with
    | nil => rfl
    | cons a rest =>
      rw [hsym, splitLines] at h
      split at h
      · cases h
      · split at h <;> cases h
  have hdesc := s.getline_describes delim limit
  rw [hnil] at hdesc
  generalize (s.getline delim limit).1 = read at hdesc
  cases read with
  | ended line => simp [LineRead.Describes] at hdesc
  | last line => rw [hdesc.1]
  | full =>
    obtain ⟨line, hsym, _, hlen⟩ := hdesc
    have := congrArg List.length hsym
    rw [List.length_nil, List.length_append] at this
    omega

/-- **One read takes one line**, whatever the chunks. -/
theorem Source.getline_cons {s : Source α} (limit : Nat) {line : List α × Bool}
    {lines : List (List α × Bool)} (h : splitLines delim s.symbols = line :: lines) :
    (s.getline delim limit).1 = .ofLine limit line ∧
      (line.1.length ≤ limit →
        splitLines delim (s.getline delim limit).2.symbols = lines ∧
          (s.getline delim limit).2.symbols.length < s.symbols.length) := by
  have hdesc := s.getline_describes delim limit
  generalize s.getline delim limit = read at hdesc
  obtain ⟨read, t⟩ := read
  cases read with
  | ended l =>
    -- the delimiter was found within the limit
    obtain ⟨hsym, hdelim, hlen⟩ := hdesc
    rw [hsym, splitLines_ended delim hdelim] at h
    obtain ⟨rfl, rfl⟩ := List.cons.inj h
    refine ⟨by simp [LineRead.ofLine, Nat.not_lt.mpr hlen], fun _ => ⟨rfl, ?_⟩⟩
    rw [hsym, List.length_append, List.length_cons]
    omega
  | last l =>
    -- the stream ended before it
    obtain ⟨hsym, hrest, hdelim, hlen⟩ := hdesc
    have hne : l ≠ [] := by
      rintro rfl
      simp [hsym, splitLines] at h
    rw [hsym, splitLines_last delim hdelim hne] at h
    obtain ⟨rfl, rfl⟩ := List.cons.inj h
    refine ⟨by simp [LineRead.ofLine, Nat.not_lt.mpr hlen], fun _ => ?_⟩
    simp only at hrest
    rw [hrest, hsym]
    exact ⟨rfl, List.length_pos_iff.mpr hne⟩
  | full =>
    -- the line goes on after the limit, in what is left
    obtain ⟨l, hsym, hdelim, hlen⟩ := hdesc
    have hne : l ≠ [] := by
      rintro rfl
      simp at hlen
    obtain ⟨more, ended, lines', hsplit⟩ := splitLines_prefix delim t.symbols hdelim hne
    rw [hsym, hsplit] at h
    obtain ⟨rfl, rfl⟩ := List.cons.inj h
    have hlong : limit < (l ++ more).length := by
      rw [List.length_append]
      omega
    exact ⟨by simp only [LineRead.ofLine, if_pos hlong],
      fun hle => absurd hlong (Nat.not_lt.mpr hle)⟩

/-- The symbols a line takes, its delimiter included when it has one. -/
def lineSize (line : List α × Bool) : Nat := line.1.length + if line.2 then 1 else 0

/-- The symbols several lines take. -/
def linesSize : List (List α × Bool) → Nat
  | [] => 0
  | line :: lines => lineSize line + linesSize lines

/-- The lines of a stream take all of its symbols. -/
theorem splitLines_size (symbols : List α) :
    linesSize (splitLines delim symbols) = symbols.length := by
  induction symbols with
  | nil => rfl
  | cons a rest ih =>
    unfold splitLines
    by_cases ha : a = delim
    · rw [if_pos ha, linesSize, ih, List.length_cons, lineSize]
      exact Nat.add_comm _ _
    · rw [if_neg ha]
      cases hsplit : splitLines delim rest with
      | nil =>
        rw [hsplit] at ih
        simp only [linesSize] at ih
        simp [linesSize, lineSize, ← ih]
      | cons l lines =>
        rw [hsplit] at ih
        simp only [linesSize, lineSize, List.length_cons] at ih ⊢
        omega

/-! ## The reading loop -/

variable {β : Type v} {ε : Type}

/-- Read line after line, each with the number of symbols the read took, until
nothing is left; a line past `limit` is an error. -/
def Source.foldLines (limit : Nat) (tooLong : ε) (step : β → List α → Nat → Except ε β)
    (b : β) (s : Source α) : Except ε β :=
  match _hread : s.getline delim limit with
  | (.full, _) => .error tooLong
  | (.last line, _) => if line = [] then .ok b else step b line line.length
  | (.ended line, t) =>
    match step b line (line.length + 1) with
    | .error e => .error e
    | .ok b => Source.foldLines limit tooLong step b t
termination_by s.symbols.length
decreasing_by
  have h := s.getline_describes delim limit
  rw [_hread] at h
  rw [h.1]
  simp only [List.length_append, List.length_cons]
  omega

/-- What the loop does with one line. -/
def lineStep (limit : Nat) (tooLong : ε) (step : β → List α → Nat → Except ε β) (b : β)
    (line : List α × Bool) : Except ε β :=
  if limit < line.1.length then .error tooLong
  else step b line.1 (lineSize line)

/-- **Chunk boundaries do not matter**: the loop is a fold over the lines of the
symbols. -/
theorem Source.foldLines_eq (limit : Nat) (tooLong : ε)
    (step : β → List α → Nat → Except ε β) (b : β) (s : Source α) :
    s.foldLines delim limit tooLong step b =
      (splitLines delim s.symbols).foldlM (lineStep limit tooLong step) b := by
  induction hn : s.symbols.length using Nat.strongRecOn generalizing s b with
  | _ n ih =>
    -- by strong induction: every line that is read makes the source shorter
    unfold Source.foldLines
    cases hsplit : splitLines delim s.symbols with
    | nil =>
      have hread := s.getline_nil delim limit hsplit
      split
      · next t h => simp [h] at hread
      · next line t h =>
        obtain rfl : line = [] := by simpa [h] using hread
        rfl
      · next line t h => simp [h] at hread
    | cons line lines =>
      obtain ⟨hread, hrest⟩ := s.getline_cons delim limit hsplit
      rw [List.foldlM_cons, lineStep]
      -- the line does not fit, and the loop stops
      by_cases hlong : limit < line.1.length
      · rw [if_pos hlong]
        simp only [LineRead.ofLine, if_pos hlong] at hread
        split
        · rfl
        · next l t h => simp [h] at hread
        · next l t h => simp [h] at hread
      · obtain ⟨hlines, hlt⟩ := hrest (Nat.not_lt.mp hlong)
        obtain ⟨line, ended⟩ := line
        rw [if_neg hlong]
        simp only [LineRead.ofLine, if_neg hlong] at hread
        split
        · next t h => cases ended <;> simp [h] at hread
        · next l t h =>
          cases ended with
          | true => simp [h] at hread
          | false =>
            obtain rfl : l = line := by simpa [h] using hread
            -- the last line has no delimiter, and nothing comes after it
            have hne := splitLines_last_ne_nil delim (hsplit ▸ List.mem_cons_self)
            have htail : t.symbols = [] := by
              have := s.getline_describes delim limit
              rw [h] at this
              exact this.2.1
            rw [h, htail] at hlines
            rw [if_neg hne, ← hlines]
            show step b l l.length = (step b l l.length >>= fun b' => .ok b')
            cases step b l l.length <;> rfl
        · next l t h =>
          cases ended with
          | false => simp [h] at hread
          | true =>
            obtain rfl : l = line := by simpa [h] using hread
            rw [h] at hlines hlt
            show _ = (step b l (l.length + 1) >>= fun b' =>
              lines.foldlM (lineStep limit tooLong step) b')
            cases step b l (l.length + 1) with
            | error e => rfl
            | ok b' =>
              rw [← hlines]
              exact ih _ (hn ▸ hlt) b' t rfl

end Lib
