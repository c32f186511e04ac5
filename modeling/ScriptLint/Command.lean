import ScriptLint.Command.Config
import ScriptLint.CommandLine.Parser
import ScriptLint.CommandLine.Usage

/-!
# Running commands

A run is a function of the command line and of the file system. It writes at most one file.
-/

namespace ScriptLint

namespace Invocation

/-- Runs a command. `onTerminal` tells whether the output goes to a terminal that wants colours. -/
def run (invocation : Invocation) (onTerminal : Bool) (files : FileSystem) : Outcome :=
  match invocation.command with
  | .check options => options.run invocation.options onTerminal files
  | .rules => RuleList.run invocation.options files
  | .createConfig output force => ConfigCommand.create output force files
  | .validateConfig config => ConfigCommand.validate config files
  | .showConfig config format => ConfigCommand.display config format invocation.options files

/-- Whether notices are coloured, given whether they go to a terminal that wants colours. -/
def colorsNotices (invocation : Invocation) (onTerminal : Bool) : Bool :=
  invocation.options.color.isColored onTerminal

end Invocation

end ScriptLint
