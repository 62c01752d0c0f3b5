import PubSub.CommandLine.Option

/-!
# Help pages

The pages that describe the command line and each of its commands.
-/

namespace PubSub.CommandLine

inductive Page where
  | overview
  | verb (v : Verb)
  | help
  deriving DecidableEq, Repr

namespace Page

def overviewText : String :=
  "Publish to and tail topics on any bps backend\n\n" ++
  "Usage: bps [OPTIONS] <COMMAND>\n\n" ++
  "Commands:\n" ++
  "  publish  Publish one message per DATA argument, as a single batch\n" ++
  "  tail     Print messages as JSON lines until the topic is exhausted\n" ++
  "  help     Print this message or the help of the given subcommand(s)\n\n" ++
  "Options:\n" ++
  "      --log <LOG>  Log filter, e.g. `debug` or `bps_transport=trace` " ++
  "(default: RUST_LOG, then `warn`)\n" ++
  "  -h, --help       Print help\n"

def publishText : String :=
  "Publish one message per DATA argument, as a single batch\n\n" ++
  "Usage: bps publish [OPTIONS] --url <URL> --topic <TOPIC> <DATA>...\n\n" ++
  "Arguments:\n" ++
  "  <DATA>...  \n\n" ++
  "Options:\n" ++
  "      --log <LOG>      Log filter, e.g. `debug` or `bps_transport=trace` " ++
  "(default: RUST_LOG, then `warn`)\n" ++
  "      --url <URL>      Backend URL, e.g. file:///var/lib/bps\n" ++
  "      --topic <TOPIC>  \n" ++
  "      --id <ID>        Message ID applied to every message\n" ++
  "      --attr <ATTRS>   Attribute as key=value (repeatable)\n" ++
  "  -h, --help           Print help\n"

def tailText : String :=
  "Print messages as JSON lines until the topic is exhausted\n\n" ++
  "Usage: bps tail [OPTIONS] --url <URL> --topic <TOPIC>\n\n" ++
  "Options:\n" ++
  "      --log <LOG>            Log filter, e.g. `debug` or `bps_transport=trace` " ++
  "(default: RUST_LOG, then `warn`)\n" ++
  "      --url <URL>            Backend URL, e.g. file:///var/lib/bps\n" ++
  "      --topic <TOPIC>        \n" ++
  "      --limit <LIMIT>        Stop after this many messages\n" ++
  "      --start-at <START_AT>  oldest or newest [default: oldest]\n" ++
  "  -h, --help                 Print help\n"

def helpText : String :=
  "Print this message or the help of the given subcommand(s)\n\n" ++
  "Usage: bps help [COMMAND]...\n\n" ++
  "Arguments:\n" ++
  "  [COMMAND]...  Print help for the subcommand(s)\n"

def text : Page → String
  | .overview => overviewText
  | .verb .publish => publishText
  | .verb .tail => tailText
  | .help => helpText

end Page

end PubSub.CommandLine
