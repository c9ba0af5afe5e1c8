import VoteTrace.Dashboard.Target

namespace VoteTrace

namespace Text.Numeral

end Text.Numeral

namespace Style

end Style

namespace RouteQuery

open Text.Blank Text.Numeral

end RouteQuery
end VoteTrace
