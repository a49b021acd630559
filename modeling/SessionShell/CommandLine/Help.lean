/-!
What the program says about itself.
-/

namespace SessionShell

def programName : String := "cuf"

def version : String := "0.3.0"

def versionText : String :=
  programName ++ " " ++ version ++ "\n"

def helpText : String :=
  programName ++ " " ++ version ++ " - A multi-session scripting shell\n" ++
  "\n" ++
  "Usage: cuf [OPTIONS] [SCRIPT|LANGUAGE]...\n" ++
  "\n" ++
  "Session options:\n" ++
  "  (no arguments)          One interactive session\n" ++
  "  -l, --language <LANG>   Default language (name, extension or MIME type)\n" ++
  "  -n, --name <NAME>       Session name shown in prompts and bound in scripts\n" ++
  "  -e, --escape <MODE>     Markup rendering: none, ansi, html\n" ++
  "\n" ++
  "Batch options:\n" ++
  "  -q, --quiet             No status line per finished script\n" ++
  "  --last-code             Exit with the last code, even a success\n" ++
  "  --parallel              Start every script at once\n" ++
  "\n" ++
  "Compile options:\n" ++
  "  -c, --compile <SRC> <OUT>\n" ++
  "                          Compile SRC into OUT and exit\n" ++
  "  -t, --target <NAME>     Compile target (default: raw)\n" ++
  "  -o, --option <K=V>      Target option, may repeat\n" ++
  "\n" ++
  "Other options:\n" ++
  "  -d, --debug             Verbose logging and error details\n" ++
  "  --stack-trace           Print error causes and script locations\n" ++
  "  -v, --version           Show version\n" ++
  "  -h, --help              Show this help\n" ++
  "\n" ++
  "Examples:\n" ++
  "  cuf                     Interactive calc session\n" ++
  "  cuf -n box a.calc       Run a.calc; it sees its session as 'box'\n" ++
  "  cuf calc calc           Two interactive sessions; ^D moves between them\n" ++
  "  cuf -c in.txt out.bin -o chunk_size=4096\n" ++
  "\n" ++
  "Configuration: ~/.cuf/config.toml\n" ++
  "Preload scripts: ~/.cuf/preload.conf\n" ++
  "Log file: ~/.cuf/cuf.log (filter with CUF_LOG)\n"

end SessionShell
