import BackupAdmin.Command.Grammar

/-! Scripts that make a shell complete the names of commands and options. -/
namespace BackupAdmin.Shell
open Arguments Text

def topWords : List String :=
  CommandLine.grammar.inner.flatMap (fun c => c.name :: c.aliases) ++
    CommandLine.grammar.options.filterMap fun o => o.long.map ("--" ++ ·)

def script (shell : Shell) : String :=
  let words := joinWith " " topWords
  let program := Program.name
  match shell with
  | .bash => "complete -W '" ++ words ++ "' " ++ program ++ "\n"
  | .zsh => "#compdef " ++ program ++ "\ncompadd -- " ++ words ++ "\n"
  | .fish => "complete -c " ++ program ++ " -f -a '" ++ words ++ "'\n"
  | .powerShell =>
    "Register-ArgumentCompleter -Native -CommandName '" ++ program ++ "' -ScriptBlock \x7b\n" ++
      "    param($word)\n    '" ++ words ++ "'.Split(' ') | Where-Object \x7b $_ -like \"$word*\" \x7d\n" ++
      "\x7d\n"
  | .elvish =>
    "set edit:completion:arg-completer[" ++ program ++ "] = \x7b|@args| put " ++ words ++ " \x7d\n"

end BackupAdmin.Shell
