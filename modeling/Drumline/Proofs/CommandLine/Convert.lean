import Drumline.CommandLine.Run
import Drumline.Proofs.CommandLine.Host

/-! Running a conversion.  The source and the options are read before anything is written, and the
only request that changes a file comes last.  The main statement is `run_convert`, that a conversion
fails without a trace, or prints its line and changes no file, or puts its line into one file and
prints nothing. -/

namespace Drumline.CommandLine

variable {σ File : Type} {host : Host (StateM σ)} {file? : σ → File → Option ByteArray} {s : σ}
  {c : Conversion} {text : List Char}

theorem exists_run {α : Type} (x : StateM σ α) (s : σ) : ∃ a s', x.run s = (a, s') := ⟨_, _, rfl⟩

theorem run_bind_of {α β : Type} {x : StateM σ α} {a : α} {s' : σ} (h : x.run s = (a, s'))
    (f : α → StateM σ β) : (x >>= f).run s = (f a).run s' := by
  rw [StateT.run_bind, h]
  rfl

theorem toOption_mapError {ε ε' α : Type} (f : ε → ε') (x : Except ε α) :
    (x.mapError f).toOption = x.toOption := by
  cases x <;> rfl

theorem eq_ok_of_toOption {ε α : Type} {x : Except ε α} {a : α} (h : x.toOption = some a) :
    x = .ok a := by
  cases x with
  | error e => cases h
  | ok b => exact congrArg Except.ok (Option.some.inj h)

/-- The text of the file that the path names. -/
def Host.text? (host : Host (StateM σ)) (s : σ) (path : List Char) : Option (List Char) :=
  (((host.readFile path).run s).1 >>= decode).toOption

theorem text?_of_readFile {path : List Char}
    (h : ((host.readFile path).run s).1 = .ok (encode text)) : host.text? s path = some text := by
  rw [Host.text?, h]
  change (decode (encode text)).toOption = some text
  rw [decode_encode]
  rfl

namespace Conversion

def source? (c : Conversion) (host : Host (StateM σ)) (s : σ) : Option (List Char) :=
  match c.source with
  | .given mml => some mml
  | .file path => host.text? s path
  | .standardInput => (decode (host.readInput.run s).1).toOption

/-- The options: each is on exactly if the config file or its flag sets it. -/
def options? (c : Conversion) (host : Host (StateM σ)) (s : σ) : Option Options :=
  match c.config with
  | none => some ⟨c.stripVolume, c.stripTempo⟩
  | some path => do
    let text ← host.text? s path
    let options ← (Config.parse text).toOption
    return ⟨options.stripVolume || c.stripVolume, options.stripTempo || c.stripTempo⟩

/-- The line to deliver, from the source and the options as they are in the state. -/
def line? (c : Conversion) (host : Host (StateM σ)) (s : σ) : Option (List Char) := do
  let source ← c.source? host s
  let options ← c.options? host s
  return line (c.render options source)

theorem options?_of_config {path : List Char} {options : Options} (hPath : c.config = some path)
    (hText : host.text? s path = some text)
    (hParse : (Config.parse text).toOption = some options) : c.options? host s =
      some ⟨options.stripVolume || c.stripVolume, options.stripTempo || c.stripTempo⟩ := by
  simp only [options?, hPath, hText, Option.bind_eq_bind, Option.bind_some, hParse]
  rfl

theorem line?_of {source : List Char} {options : Options} (hSource : c.source? host s = some source)
    (hOptions : c.options? host s = some options) :
    c.line? host s = some (line (c.render options source)) := by
  rw [line?, hSource, hOptions]
  rfl

theorem run_readSource (h : host.Atomic file?) (c : Conversion) (s : σ) :
    ((c.readSource host).run s).1.toOption = c.source? host s ∧
      ((c.readSource host).run s).2 = s := by
  unfold readSource source?
  cases c.source with
  | given mml => exact ⟨rfl, rfl⟩
  | file path => exact ⟨toOption_mapError _ _, h.readFile path s⟩
  | standardInput => exact ⟨toOption_mapError _ _, h.readInput s⟩

theorem toOption_optionsOfBytes (path : List Char) (bytes : ByteArray) :
    (optionsOfBytes path bytes).toOption =
      (decode bytes).toOption.bind fun text => (Config.parse text).toOption := by
  unfold optionsOfBytes
  cases decode bytes with
  | error e => rfl
  | ok text => exact toOption_mapError _ _

theorem run_readOptions (h : host.Atomic file?) (c : Conversion) (s : σ) :
    ((c.readOptions host).run s).1.toOption = c.options? host s ∧
      ((c.readOptions host).run s).2 = s := by
  unfold readOptions options?
  cases c.config with
  | none => exact ⟨rfl, rfl⟩
  | some path =>
    have hState := h.readFile path s
    unfold Host.text?
    obtain ⟨read, s', hRead⟩ := exists_run (host.readFile path) s
    rw [hRead] at hState
    obtain rfl : s' = s := hState
    dsimp only
    rw [run_bind_of hRead, hRead]
    cases read with
    | error e => exact ⟨rfl, rfl⟩
    | ok bytes =>
      refine ⟨?_, rfl⟩
      change ((optionsOfBytes path bytes).map (·.merge c.flags)).toOption =
        (decode bytes).toOption.bind fun text => (Config.parse text).toOption.bind fun options =>
          some ⟨options.stripVolume || c.stripVolume, options.stripTempo || c.stripTempo⟩
      rw [← Option.bind_assoc, ← toOption_optionsOfBytes]
      cases optionsOfBytes path bytes <;> rfl

/-- A run ends where the source or the options cannot be read, and delivers its line otherwise. -/
theorem run_cases (h : host.Atomic file?) (c : Conversion) (s : σ) :
    (c.line? host s = none ∧ ∃ failure, (c.run host).run s = (.failed [] failure, s)) ∨
      ∃ text events, c.line? host s = some text ∧
        (c.run host).run s = (c.deliver host events text).run s := by
  have hSource := run_readSource h c s
  have hOptions := run_readOptions h c s
  obtain ⟨source, s', hReadSource⟩ := exists_run (c.readSource host) s
  obtain ⟨options, s'', hReadOptions⟩ := exists_run (c.readOptions host) s
  rw [hReadSource] at hSource
  rw [hReadOptions] at hOptions
  obtain ⟨hSource, rfl : s' = s⟩ := hSource
  obtain ⟨hOptions, rfl : s'' = s'⟩ := hOptions
  rw [line?, ← hSource, ← hOptions, run, run_bind_of hReadSource]
  cases source with
  | error failure => exact .inl ⟨rfl, failure, rfl⟩
  | ok source =>
    dsimp only
    rw [run_bind_of hReadOptions]
    cases options with
    | error failure => exact .inl ⟨rfl, failure, rfl⟩
    | ok options => exact .inr ⟨_, _, rfl, rfl⟩

theorem run_deliver (h : host.Atomic file?) (c : Conversion) (events : List Event)
    (text : List Char) (s : σ) : (c.deliver host events text).run s =
      match c.output with
      | none => (⟨text, events, none⟩, s)
      | some path =>
        match ((host.writeFile path text).run s).1 with
        | .error e => (.failed events (.outputUnwritable path e), s)
        | .ok () =>
          (⟨[], events ++ [.saved path], none⟩, ((host.writeFile path text).run s).2) := by
  unfold deliver
  cases c.output with
  | none => rfl
  | some path =>
    dsimp only
    obtain ⟨written, s', hWrite⟩ := exists_run (host.writeFile path text) s
    have hRefused := h.refused path text s
    rw [run_bind_of hWrite]
    rw [hWrite] at hRefused ⊢
    cases written with
    | ok => rfl
    | error e =>
      obtain rfl : s' = s := hRefused e rfl
      rfl

end Conversion

/-- What is printed of a run is what its outcome says, however much is logged. -/
theorem run_of_ofArguments {arguments : List (List Char)} {i : Invocation}
    (h : Invocation.ofArguments arguments = .ok i) {outcome : Outcome} {s' : σ}
    (hRun : (i.task.run host).run s = (outcome, s')) :
    (run host arguments).run s = (.ok (outcome.printed i.level), s') := by
  have hPrinted : (i.run host).run s = (outcome.printed i.level, s') :=
    run_bind_of hRun fun outcome => return outcome.printed i.level
  rw [run, h]
  exact run_bind_of hPrinted fun printed => return Except.ok printed

/-- A conversion does all or nothing, on every host that writes a text as a whole or not at all.
If the source or the options cannot be read, or the output cannot be written, it fails, prints
nothing and changes nothing.  Otherwise its line, from the source and the options as they were
before the run, is all that it prints, and nothing is changed; or the line is the contents of the
file that the output path names, nothing is printed and no other file is changed.  Every invocation
of the same task leaves and prints the same, however much it logs. -/
theorem run_convert (hHost : host.Atomic file?) {arguments : List (List Char)} {i : Invocation}
    (hArguments : Invocation.ofArguments arguments = .ok i) (hTask : i.task = .convert c) (s : σ) :
    ∃ printed s', (run host arguments).run s = (.ok printed, s') ∧
      (match c.line? host s, c.output with
        | none, _ => printed.exitCode = 1 ∧ printed.output = [] ∧ s' = s
        | some text, none => printed.exitCode = 0 ∧ printed.output = text ∧ s' = s
        | some text, some path =>
          match ((host.writeFile path text).run s).1 with
          | .error _ => printed.exitCode = 1 ∧ printed.output = [] ∧ s' = s
          | .ok () => printed.exitCode = 0 ∧ printed.output = [] ∧
            ((host.readFile path).run s').1 = .ok (encode text) ∧
              ∃ file, file? s' file = some (encode text) ∧
                ∀ other ≠ file, file? s' other = file? s other) ∧
      ∀ arguments' i', Invocation.ofArguments arguments' = .ok i' → i'.task = i.task →
        ∃ printed', (run host arguments').run s = (.ok printed', s') ∧
          printed'.exitCode = printed.exitCode ∧ printed'.output = printed.output := by
  obtain ⟨outcome, s', hRun⟩ := exists_run (i.task.run host) s
  refine ⟨outcome.printed i.level, s', run_of_ofArguments hArguments hRun, ?_, ?_⟩
  · rw [hTask, Task.run] at hRun
    obtain ⟨hLine, failure, hFailed⟩ | ⟨text, events, hLine, hDelivered⟩ := c.run_cases hHost s
    · obtain ⟨rfl, rfl⟩ := Prod.mk.inj (hRun.symm.trans hFailed)
      rw [hLine]
      exact ⟨rfl, rfl, rfl⟩
    · rw [hDelivered, c.run_deliver hHost] at hRun
      rw [hLine]
      cases hOutput : c.output with
      | none =>
        rw [hOutput] at hRun
        obtain ⟨rfl, rfl⟩ := Prod.mk.inj hRun
        exact ⟨rfl, rfl, rfl⟩
      | some path =>
        have hWritten := hHost.written path text s
        rw [hOutput] at hRun
        dsimp only at hRun ⊢
        cases hWrite : ((host.writeFile path text).run s).1 with
        | error e =>
          rw [hWrite] at hRun
          obtain ⟨rfl, rfl⟩ := Prod.mk.inj hRun
          exact ⟨rfl, rfl, rfl⟩
        | ok =>
          rw [hWrite] at hRun
          obtain ⟨rfl, rfl⟩ := Prod.mk.inj hRun
          exact ⟨rfl, rfl, hWritten hWrite⟩
  · intro arguments' i' hArguments' hSame
    rw [← hSame] at hRun
    exact ⟨outcome.printed i'.level, run_of_ofArguments hArguments' hRun, rfl, rfl⟩

/-- The file of the source can be written over, and the config file stays in force for that.  The
volume commands are deleted by the flag and the tempo commands by the config file there; the other
way round, the standard input is converted to a JSON document that is printed. -/
theorem run_convert_in_place :
    let w : World := ⟨encode "v9c8t90,d,".toList, ⟨[(['a'], encode "t90v9c,d".toList),
      (['b'], encode "\x7b\"strip_tempo\": true\x7d".toList),
      (['c'], encode "\x7b\"strip_volume\": true\x7d".toList)]⟩⟩
    (∃ quiet verbose w',
      (run World.host ["convert".toList, "-qcb".toList, "--strip-volume".toList, "-fa".toList,
        "--output=a".toList]).run w = (.ok quiet, w') ∧
      (run World.host ["-v".toList, "convert".toList, "-cb".toList, "--strip-volume".toList,
        "-fa".toList, "--output=a".toList]).run w = (.ok verbose, w') ∧
      ((World.host.readFile ['a']).run w').1 = .ok (encode "l4n48\nl4n50\n\n".toList) ∧
      quiet.exitCode = 0 ∧ verbose.exitCode = 0 ∧ quiet.output = [] ∧ verbose.output = []) ∧
    ∃ printed, (run World.host ["convert".toList, "--config=c".toList, "--strip-tempo".toList,
        "--format".toList, "json".toList]).run w = (.ok printed, w) ∧
      printed.exitCode = 0 ∧ printed.output =
        "\x7b\n  \"voices\": [\n    \"l8n48\",\n    \"l4n50\",\n    \"\"\n  ]\n\x7d\n".toList := by
  intro w
  let c : Conversion := ⟨.file ['a'], true, false, some ['b'], .text, some ['a']⟩
  let c' : Conversion := ⟨.standardInput, false, true, some ['c'], .json, none⟩
  have hQuiet : Invocation.ofArguments ["convert".toList, "-qcb".toList, "--strip-volume".toList,
      "-fa".toList, "--output=a".toList] = .ok ⟨false, true, .convert c⟩ :=
    eq_ok_of_toOption (by decide +kernel)
  have hVerbose : Invocation.ofArguments ["-v".toList, "convert".toList, "-cb".toList,
      "--strip-volume".toList, "-fa".toList, "--output=a".toList] =
      .ok ⟨true, false, .convert c⟩ :=
    eq_ok_of_toOption (by decide +kernel)
  have hPrinted : Invocation.ofArguments ["convert".toList, "--config=c".toList,
      "--strip-tempo".toList, "--format".toList, "json".toList] = .ok ⟨false, false, .convert c'⟩ :=
    eq_ok_of_toOption (by decide +kernel)
  constructor
  · have hLine : c.line? World.host w = some "l4n48\nl4n50\n\n".toList := by
      have hParse : (Config.parse "\x7b\"strip_tempo\": true\x7d".toList).toOption =
        some ⟨false, true⟩ := by decide +kernel
      have hRender : line (c.render ⟨true, true⟩ "t90v9c,d".toList) =
        "l4n48\nl4n50\n\n".toList := by decide +kernel
      rw [← hRender]
      exact Conversion.line?_of (text?_of_readFile rfl)
        (Conversion.options?_of_config rfl (text?_of_readFile rfl) hParse)
    obtain ⟨quiet, w', hRun, hConvert, hLog⟩ := run_convert World.atomic_host hQuiet rfl w
    obtain ⟨verbose, hRun', hExitCode, hOutput⟩ := hLog _ _ hVerbose rfl
    have hWrite : ((World.host.writeFile ['a'] "l4n48\nl4n50\n\n".toList).run w).1 = .ok () := rfl
    rw [hLine] at hConvert
    simp only [c, hWrite] at hConvert
    obtain ⟨hCode, hEmpty, hRead, -⟩ := hConvert
    exact ⟨quiet, verbose, w', hRun, hRun', hRead, hCode, hExitCode.trans hCode, hEmpty,
      hOutput.trans hEmpty⟩
  · have hInput : c'.source? World.host w = some "v9c8t90,d,".toList :=
      congrArg Except.toOption (decode_encode _)
    have hParse : (Config.parse "\x7b\"strip_volume\": true\x7d".toList).toOption =
      some ⟨true, false⟩ := by decide +kernel
    have hLine := Conversion.line?_of hInput
      (Conversion.options?_of_config rfl (text?_of_readFile rfl) hParse)
    obtain ⟨printed, w', hRun, hConvert, -⟩ := run_convert World.atomic_host hPrinted rfl w
    rw [hLine] at hConvert
    obtain ⟨hCode, hOutput, rfl⟩ := hConvert
    refine ⟨printed, hRun, hCode, hOutput.trans ?_⟩
    decide +kernel

end Drumline.CommandLine
