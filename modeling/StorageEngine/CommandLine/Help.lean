import StorageEngine.CommandLine.Arguments

/-!
# Help texts

What the program says about itself.
-/

namespace StorageEngine.CommandLine

/-- The name and the version of the program. -/
def versionLine : String := "bayuncore 0.1.0"

/-- The lines of the help on a topic. -/
def helpLines : Topic → List String
  | .program =>
    [ "Bayun storage core - concurrent transaction driver",
      "",
      "Usage: bayuncore [OPTIONS] <COMMAND>",
      "",
      "Commands:",
      "  run   Run concurrent insert transactions, retrying deadlock victims",
      "  scan  Count the tuples stored in the table",
      "  help  Print this message or the help of the given subcommand(s)",
      "",
      "Options:",
      "  -d, --dir <DIR>              Directory holding the table file [default: bayun_data]",
      "  -p, --pool-size <POOL_SIZE>  Buffer pool size (number of pages) [default: 50]",
      "      --page-size <PAGE_SIZE>  Page size in bytes [default: 4096]",
      "  -h, --help                   Print help",
      "  -V, --version                Print version" ]
  | .run =>
    [ "Run concurrent insert transactions, retrying deadlock victims",
      "",
      "Usage: bayuncore run [OPTIONS]",
      "",
      "Options:",
      "  -t, --threads <THREADS>                Number of worker threads [default: 4]",
      "  -n, --txns <TXNS>                      Transactions per thread [default: 100]",
      "      --tuples-per-txn <TUPLES_PER_TXN>  Tuples inserted by each transaction [default: 3]",
      "  -h, --help                             Print help" ]
  | .scan =>
    [ "Count the tuples stored in the table",
      "",
      "Usage: bayuncore scan",
      "",
      "Options:",
      "  -h, --help  Print help" ]
  | .help =>
    [ "Print this message or the help of the given subcommand(s)",
      "",
      "Usage: bayuncore help [COMMAND]...",
      "",
      "Arguments:",
      "  [COMMAND]...  Print help for the subcommand(s)" ]

/-- The lines of the report on a command line that makes no sense. -/
def usageLines : List String :=
  [ "error: invalid command line",
    "",
    "Usage: bayuncore [OPTIONS] <COMMAND>",
    "",
    "For more information, try '--help'." ]

end StorageEngine.CommandLine
