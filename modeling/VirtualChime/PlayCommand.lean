import VirtualChime.Library.PosixShell
import VirtualChime.Bytes

/-!
# The command that plays a sound

`EscapeShellDoubleQuotes` and the command line that `AplayAudioPlayer::Play` hands to the
shell.
-/

namespace VirtualChime.AplayAudioPlayer

open PosixShell (Token SimpleCommand lex run finish simpleCommand quotedWord)

/-! ## 1. The source -/

def escapeShellDoubleQuotes (value : Bytes) : Bytes :=
  value.flatMap fun c => if c = 34 ∨ c = 92 ∨ c = 36 ∨ c = 96 then [92, c] else [c]

/-- The command that `Play` builds for a sound. -/
def playCommand (playback_path : Bytes) : Bytes :=
  bytes "aplay -q \"" ++ escapeShellDoubleQuotes playback_path ++ bytes "\" 2>/dev/null"

/-- What `std::system` hands to the shell: a C string ends at its first NUL. -/
def systemInput (cmd : Bytes) : Bytes := cStr cmd

/-! ## 2. Its words -/

theorem escapeShellDoubleQuotes_eq (value : Bytes) :
    escapeShellDoubleQuotes value = PosixShell.escape value := by
  have hspecial : ∀ c : Byte,
      (c = 34 ∨ c = 92 ∨ c = 36 ∨ c = 96) ↔ PosixShell.isSpecial c = true := by
    intro c
    simp [PosixShell.isSpecial, or_assoc]
  unfold escapeShellDoubleQuotes PosixShell.escape
  simp only [hspecial]

theorem nul_not_mem_playCommand {path : Bytes} (h : (0 : Byte) ∉ path) :
    (0 : Byte) ∉ playCommand path := by
  have hescaped : (0 : Byte) ∉ escapeShellDoubleQuotes path := by
    intro hmem
    obtain ⟨c, hc, hzero⟩ := List.mem_flatMap.mp hmem
    split at hzero
    · simp at hzero
      exact h (hzero ▸ hc)
    · simp at hzero
      exact h (hzero ▸ hc)
  have hbefore : (0 : Byte) ∉ bytes "aplay -q \"" := by decide
  have hafter : (0 : Byte) ∉ bytes "\" 2>/dev/null" := by decide
  simp only [playCommand, List.mem_append, not_or]
  exact ⟨⟨hbefore, hescaped⟩, hafter⟩

theorem systemInput_eq_self {cmd : Bytes} (h : (0 : Byte) ∉ cmd) : systemInput cmd = cmd := by
  rw [systemInput, cStr, List.takeWhile_eq_self_iff]
  intro c hc
  have hne : c ≠ 0 := fun heq => h (heq ▸ hc)
  simpa using hne

/-- A word of plain bytes. -/
def plainWord (text : Bytes) : PosixShell.Word := text.map fun c => (c, false)

/-- The command that plays a sound has the words `aplay`, `-q` and the path of the sound, byte for
byte; nothing in the path is expanded, and nothing in it starts another command. -/
theorem play_command_words {path : Bytes} (h : (0 : Byte) ∉ path) :
    lex (systemInput (playCommand path)) =
        .ok [.word (plainWord (bytes "aplay")), .word (plainWord (bytes "-q")),
          .word (quotedWord path), .ioNumber (bytes "2"), .operator (bytes ">"),
          .word (plainWord (bytes "/dev/null"))] ∧
      (lex (systemInput (playCommand path))).map simpleCommand =
        .ok (some {
          words := [bytes "aplay", bytes "-q", path]
          redirects := [(some (bytes "2"), bytes ">", bytes "/dev/null")] }) := by
  have hbefore : run .between (bytes "aplay -q \"") =
      .ok ([.word (plainWord (bytes "aplay")), .word (plainWord (bytes "-q"))],
        .doubleQuoted []) := by
    decide +kernel
  have hinside := PosixShell.run_escape [] path
  have hafter : ∀ w, run (.doubleQuoted w) (bytes "\" 2>/dev/null") =
      .ok ([.word w, .ioNumber (bytes "2"), .operator (bytes ">")],
        .word (plainWord (bytes "/dev/null"))) := by
    intro w
    rfl
  have hrun := PosixShell.run_append (PosixShell.run_append hbefore hinside)
    (hafter ([] ++ quotedWord path))
  rw [← escapeShellDoubleQuotes_eq, ← playCommand] at hrun
  have hlex : lex (systemInput (playCommand path)) =
      .ok [.word (plainWord (bytes "aplay")), .word (plainWord (bytes "-q")),
        .word (quotedWord path), .ioNumber (bytes "2"), .operator (bytes ">"),
        .word (plainWord (bytes "/dev/null"))] := by
    rw [systemInput_eq_self (nul_not_mem_playCommand h), lex, hrun]
    rfl
  refine ⟨hlex, ?_⟩
  have hcommand : simpleCommand [.word (plainWord (bytes "aplay")),
      .word (plainWord (bytes "-q")), .word (quotedWord path), .ioNumber (bytes "2"),
      .operator (bytes ">"), .word (plainWord (bytes "/dev/null"))] =
      some {
        words := [bytes "aplay", bytes "-q", path]
        redirects := [(some (bytes "2"), bytes ">", bytes "/dev/null")] } := by
    simp only [simpleCommand, PosixShell.literal_quotedWord]
    rfl
  rw [hlex, Except.map, hcommand]

/-- A path that asks for a restart in five ways. -/
theorem play_command_words_hostile :
    (lex (systemInput (playCommand (bytes "/a\\\"; reboot; $(reboot) `reboot` $\x7bIFS\x7d\\")))).map
        simpleCommand =
      .ok (some {
        words := [bytes "aplay", bytes "-q",
          bytes "/a\\\"; reboot; $(reboot) `reboot` $\x7bIFS\x7d\\"]
        redirects := [(some (bytes "2"), bytes ">", bytes "/dev/null")] }) :=
  (play_command_words (by decide)).2

end VirtualChime.AplayAudioPlayer
