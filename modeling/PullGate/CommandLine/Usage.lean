import PullGate.Text.Basic

/-!
What the command tells of its use.
-/

namespace PullGate.CommandLine

def program : Text := "insights-decorator"

def usage : Text :=
  "usage: insights-decorator [-h] [--approve | --no-approve] [--project KEY]\n"
    ++ "                          [--repo SLUG] [--json]\n"
    ++ "                          ANALYSIS_JSON\n"

def help : Text :=
  usage
    ++ "\nDecorate a Bitbucket Cloud pull request with analysis results.\n"
    ++ "\npositional arguments:\n"
    ++ "  ANALYSIS_JSON  Path to the analysis export (JSON)\n"
    ++ "\noptions:\n"
    ++ "  -h, --help     show this help message and exit\n"
    ++ "  --approve      Approve the pull request when the gate passed, unapprove\n"
    ++ "                 otherwise\n"
    ++ "  --no-approve   Leave the pull request approval untouched\n"
    ++ "  --project KEY  Override BITBUCKET_PROJECT_KEY\n"
    ++ "  --repo SLUG    Override BITBUCKET_REPOSITORY_SLUG\n"
    ++ "  --json         Print the decoration result as JSON\n"
    ++ "\nExamples:\n"
    ++ "  python main.py analysis.json\n"
    ++ "  python main.py analysis.json --approve\n"
    ++ "  BITBUCKET_OAUTH2_KEY=key BITBUCKET_TOKEN=secret python main.py analysis.json\n"
    ++ "        \n"

end PullGate.CommandLine
